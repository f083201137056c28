import WorldIDBridge.L1.StarkStateBridge
import WorldIDBridge.L2.Chain
import WorldIDBridge.Lib.AtMostOnce

/-!
# The bridge, the channel and StarkWorldID together

One state for both chains: the bridge and the contracts around it on L1,
the messages the core logged, and the contract on L2 once it is deployed.
An action is anything that can happen: a call of the bridge by any account,
a message of any other account, a change outside, or the delivery of a
message in flight, in any order. An action that reverts, or cannot happen,
leaves the state as it is.
-/

namespace WorldIDBridge

open L1 L2 L2.StarkWorldID

/-- Where the two contracts of this repository live. -/
structure Accounts where
  bridge : EthAddress
  worldID : U256
  deriving DecidableEq, Repr

/-- The message the sequencer hands over: every word has to be a felt. -/
def L1.LogMessageToL2.toL2 (log : LogMessageToL2) : Option L1HandlerMessage := do
  let selector ← toFelt? log.selector
  let payload ← log.payload.mapM toFelt?
  return ⟨log.fromAddress.toFelt, selector, payload⟩

structure System where
  bridge : StarkStateBridge.Storage
  world : World
  channel : Channel LogMessageToL2
  worldID : Option Chain

inductive Action where
  /-- A transaction to the bridge. -/
  | call (msg : Msg) (call : BridgeCall)
  /-- A message of another account through the core. -/
  | foreign (msg : Msg) (toAddress selector : U256) (payload : List U256)
  /-- `transferOwnership` or `renounceOwnership` of the bridge. -/
  | transferOwnership (newOwner : EthAddress)
  /-- Anything the other contracts do. -/
  | environment (latestRoot : EthAddress → Option U256) (accepts : EthAddress → Bool)
  /-- The deployment of StarkWorldID. -/
  | deploy (l1Address : EthAddress) (treeDepth : U8)
  /-- The delivery of the message at a position, in a block of that time. -/
  | deliver (i : Nat) (timestamp : U64)

namespace System

variable (acc : Accounts)

/-- A message reaches the contract it is addressed to. -/
def receive (c : Chain) (log : LogMessageToL2) (timestamp : U64) : Chain :=
  if log.toAddress = acc.worldID then
    match log.toL2 with
    | some message => c.deliver ⟨timestamp, message⟩
    | none => c
  else c

def step (s : System) : Action → System
  | .call msg call =>
      match StarkStateBridge.exec s.bridge acc.bridge s.world msg call with
      | .ok o => ⟨o.bridge, o.world, s.channel.send o.logs, s.worldID⟩
      | .error _ => s
  | .foreign msg toAddress selector payload =>
      if msg.sender = acc.bridge then s
      else match StarknetMessaging.sendMessageToL2 s.world.core msg toAddress selector
          payload with
        | .ok (core, log) =>
            { s with world := { s.world with core := core }, channel := s.channel.send [log] }
        | .error _ => s
  | .transferOwnership newOwner => { s with bridge := { s.bridge with owner := newOwner } }
  | .environment latestRoot accepts =>
      { s with world := { s.world with latestRoot := latestRoot, accepts := accepts } }
  | .deploy l1Address treeDepth =>
      match s.worldID, Chain.deploy l1Address treeDepth with
      | none, .ok c => { s with worldID := some c }
      | _, _ => s
  | .deliver i timestamp =>
      match s.worldID, s.channel.sent[i]? with
      | some c, some log =>
          if h : s.channel.InFlight i then
            { s with
              channel := s.channel.deliver i h
              worldID := some (receive acc c log timestamp) }
          else s
      | _, _ => s

/-- Right after the deployment of the bridge: nothing is sent, and there is
no contract on L2. -/
structure Start (s : System) : Prop where
  bridge : ∃ sender manager starkWorldIDAddress core,
    StarkStateBridge.construct sender manager starkWorldIDAddress core = .ok s.bridge
  channel : s.channel = Channel.empty
  worldID : s.worldID = none

/-! ## What one action can do -/

variable {acc : Accounts}

/-- A message the bridge sent in state `s`, for a call that succeeded. -/
structure SentByBridge (acc : Accounts) (s : System) (a : Action) (log : LogMessageToL2) :
    Prop where
  called : ∃ msg call o, a = .call msg call
    ∧ StarkStateBridge.exec s.bridge acc.bridge s.world msg call = .ok o
    ∧ StarkStateBridge.request s.bridge s.world call = some (log.selector, log.payload)
  fromAddress : log.fromAddress = acc.bridge
  toAddress : log.toAddress = s.bridge.starkWorldIDAddress

variable (acc)

/-- The channel takes at most one message a step: one of the bridge, or one
of another account. -/
theorem step_sent (s : System) (a : Action) :
    (step acc s a).channel.sent = s.channel.sent
      ∨ ∃ log, (step acc s a).channel.sent = s.channel.sent ++ [log]
          ∧ (log.fromAddress ≠ acc.bridge ∨ SentByBridge acc s a log) := by
  cases a with
  | call msg call =>
      cases hexec : StarkStateBridge.exec s.bridge acc.bridge s.world msg call with
      | error e => exact .inl (by simp only [step, hexec])
      | ok o =>
          rcases StarkStateBridge.exec_cases hexec with
            ⟨-, -, -, hlogs⟩ | ⟨selector, payload, hreq, -, -, -, -, hlogs⟩
          · exact .inl (by simp only [step, hexec, hlogs, Channel.sent_send,
              List.append_nil])
          · refine .inr ⟨_, by simp only [step, hexec, hlogs, Channel.sent_send]; rfl,
              .inr ⟨⟨msg, call, o, rfl, hexec, hreq⟩, rfl, rfl⟩⟩
  | foreign msg toAddress selector payload =>
      by_cases hsender : msg.sender = acc.bridge
      · exact .inl (by simp only [step, if_pos hsender])
      · cases hsend : StarknetMessaging.sendMessageToL2 s.world.core msg toAddress
            selector payload with
        | error e => exact .inl (by simp only [step, if_neg hsender, hsend])
        | ok r =>
            obtain ⟨core, log⟩ := r
            obtain ⟨-, hlog, -⟩ := StarknetMessaging.sendMessageToL2_eq_ok.mp hsend
            simp only at hlog
            refine .inr ⟨log, ?_, .inl (by rw [hlog]; exact hsender)⟩
            simp only [step, if_neg hsender, hsend, Channel.sent_send]
  | transferOwnership newOwner => exact .inl rfl
  | environment latestRoot accepts => exact .inl rfl
  | deploy l1Address treeDepth => exact .inl (by simp only [step]; split <;> rfl)
  | deliver i timestamp =>
      refine .inl ?_
      simp only [step]
      split
      · split <;> rfl
      · rfl

/-- What a step can do on L2: nothing, the deployment, or one delivery of a
message in flight, which is then delivered. -/
inductive OnL2 (acc : Accounts) (s : System) (a : Action) (s' : System) : Prop where
  | same (worldID : s'.worldID = s.worldID)
      (delivered : s'.channel.delivered = s.channel.delivered)
  | deployed {l1Address : EthAddress} {treeDepth : U8} {c : Chain}
      (action : a = .deploy l1Address treeDepth) (before : s.worldID = none)
      (deploy : Chain.deploy l1Address treeDepth = .ok c) (worldID : s'.worldID = some c)
      (delivered : s'.channel.delivered = s.channel.delivered)
  | delivered {i : Nat} {timestamp : U64} {c : Chain} {log : LogMessageToL2}
      (action : a = .deliver i timestamp) (before : s.worldID = some c)
      (log_eq : s.channel.sent[i]? = some log) (inFlight : s.channel.InFlight i)
      (worldID : s'.worldID = some (receive acc c log timestamp))
      (delivered : s'.channel.delivered = i :: s.channel.delivered)

theorem step_onL2 (s : System) (a : Action) : OnL2 acc s a (step acc s a) := by
  cases a with
  | call msg call =>
      simp only [step]
      split <;> exact .same rfl rfl
  | foreign msg toAddress selector payload =>
      simp only [step]
      split
      · exact .same rfl rfl
      · split <;> exact .same rfl rfl
  | transferOwnership newOwner => exact .same rfl rfl
  | environment latestRoot accepts => exact .same rfl rfl
  | deploy l1Address treeDepth =>
      simp only [step]
      split
      · rename_i c hnone hdeploy
        exact .deployed rfl hnone hdeploy rfl rfl
      · exact .same rfl rfl
  | deliver i timestamp =>
      simp only [step]
      split
      · rename_i c log hsome hlog
        split
        · rename_i hflight
          exact .delivered rfl hsome hlog hflight rfl rfl
        · exact .same rfl rfl
      · exact .same rfl rfl

end System

end WorldIDBridge
