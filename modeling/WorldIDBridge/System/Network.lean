import WorldIDBridge.Service.Relay
import WorldIDBridge.System.Ordering

/-!
# The event path between the two chains

The relayer's event path works against a moving L1: an event says which root
was set, but the executor's transaction carries the root that is the latest
when it is included. One state has both: the relayer's tasks, the executor's
transactions on their way, and the two chains. The poller rests.

Two transactions carry the same root exactly when no root was set between
their inclusions. The second of the two messages is then refused on L2.
-/

namespace WorldIDBridge

open Service TransitionRun

/-- A transaction the executor broadcast, with the event it is for. -/
structure Submission where
  event : TreeChanged
  value : U256
  deriving DecidableEq, Repr

/-- `changes` are the events of the identity manager, oldest first, and
`sentFor` says of each message on the channel which event its transaction was
for and how many changes there were before it. -/
structure Network where
  relay : Relay
  chains : System
  /-- Events on their way to the listener. -/
  unseen : List TreeChanged
  /-- Transactions that are broadcast and not included. -/
  pool : List Submission
  included : List Submission
  changes : List TreeChanged
  sentFor : List (TreeChanged × Nat)

namespace Network

/-- What is fixed during a run. -/
structure Setting where
  accounts : Accounts
  /-- The account the relayer signs for. -/
  wallet : EthAddress
  feeType : Fee

inductive Action where
  /-- The identity manager sets a root. -/
  | change (postRoot : U256)
  /-- The next event reaches the listener. -/
  | log
  /-- The next event is lost with the connection. -/
  | miss
  | relay (a : Relay.Action)
  /-- The executor's propagation broadcasts a transaction. -/
  | broadcast
  /-- The transaction at a position of the pool is included. -/
  | mine (i : Nat)
  /-- The message at a position is consumed on L2, in a block of that time. -/
  | deliver (i : Nat) (timestamp : U64)

/-- A propagation succeeds once a transaction for its event is included. -/
def confirmed (s : Network) : Bool :=
  s.relay.path.executor.inHand.all fun event => s.included.any fun tx => tx.event = event

/-- The steps of the relayer that may be taken on their own: the events come
from L1, the poller rests. -/
def permits (s : Network) : Relay.Action → Bool
  | .event _ => false
  | .poll => false
  | .propagated (.ok ()) => s.confirmed
  | _ => true

variable (env : Setting)

/-- The identity manager sets a root and emits the event. -/
def setRoot (s : Network) (postRoot : U256) : Network :=
  let latestRoot := Function.update s.chains.world.latestRoot
    s.chains.bridge.worldIDIdentityManager (some postRoot)
  { s with
    chains := System.step env.accounts s.chains
      (.environment latestRoot s.chains.world.accepts)
    unseen := s.unseen ++ [⟨postRoot⟩]
    changes := s.changes ++ [⟨postRoot⟩] }

/-- A transaction of the pool is included, and calls the bridge. -/
def callPropagateRoot (s : Network) (i : Nat) (tx : Submission) : Network :=
  let msg : L1.Msg := ⟨env.wallet, tx.value⟩
  let logs :=
    match L1.StarkStateBridge.exec s.chains.bridge env.accounts.bridge s.chains.world msg
        .propagateRoot with
    | .ok o => o.logs
    | .error _ => []
  { s with
    chains := System.step env.accounts s.chains (.call msg .propagateRoot)
    pool := s.pool.eraseIdx i
    included := s.included ++ [tx]
    sentFor := s.sentFor ++ logs.map fun _ => (tx.event, s.changes.length) }

def step (s : Network) : Action → Network
  | .change postRoot => s.setRoot env postRoot
  | .log =>
      match s.unseen, s.relay.path.listener with
      | event :: unseen, .listening =>
          { s with relay := s.relay.step env.feeType (.event event), unseen }
      | _, _ => s
  | .miss => { s with unseen := s.unseen.tail }
  | .relay a =>
      if s.permits a = true then { s with relay := s.relay.step env.feeType a } else s
  | .broadcast =>
      match s.relay.path.executor with
      | .propagating event value => { s with pool := s.pool ++ [⟨event, value⟩] }
      | _ => s
  | .mine i =>
      match s.pool[i]? with
      | some tx => s.callPropagateRoot env i tx
      | none => s
  | .deliver i timestamp =>
      { s with chains := System.step env.accounts s.chains (.deliver i timestamp) }

/-- Before the first event: nothing is sent, the bridge is configured with
the core and StarkWorldID, and StarkWorldID at `c₀` is owned by the bridge. -/
structure Start (c₀ : L2.Chain) (s : Network) : Prop where
  relay : ∃ now, s.relay = .start now
  fresh : s.unseen = [] ∧ s.pool = [] ∧ s.included = [] ∧ s.changes = [] ∧ s.sentFor = []
  channel : s.chains.channel = .empty
  core : s.chains.bridge.starknetCoreContract = s.chains.world.coreAddress
  starkWorldID : s.chains.bridge.starkWorldIDAddress = env.accounts.worldID
  worldID : s.chains.worldID = some c₀
  owner : c₀.storage.crossDomainOwnable.l1Owner = env.accounts.bridge
  bridge : env.accounts.bridge ≠ 0

/-- How often the root had changed when the message at `i` was sent. -/
def changesBefore (s : Network) (i : Nat) : Option Nat := s.sentFor[i]?.map Prod.snd

/-! ## What a message carries -/

/-- The message carries the last of the first `n` roots set, and the event its
transaction was for is among these. -/
def Carries (acc : Accounts) (changes : List TreeChanged) (log : L1.LogMessageToL2)
    (sentFor : TreeChanged × Nat) : Prop :=
  ∃ k last, sentFor.2 = k + 1 ∧ changes[k]? = some last
    ∧ System.rootOf acc log = some last.postRoot ∧ sentFor.1 ∈ changes.take (k + 1)

theorem Carries.append {acc : Accounts} {changes : List TreeChanged} {log : L1.LogMessageToL2}
    {sentFor : TreeChanged × Nat} (h : Carries acc changes log sentFor)
    (more : List TreeChanged) : Carries acc (changes ++ more) log sentFor := by
  obtain ⟨k, last, hk, hlast, hroot, hmem⟩ := h
  have hlt : k < changes.length := (List.getElem?_eq_some_iff.mp hlast).1
  refine ⟨k, last, hk, ?_, hroot, ?_⟩
  · rwa [List.getElem?_append_left hlt]
  · rwa [List.take_append_of_le_length hlt]

/-- An event on its way to a transaction. -/
def OnItsWay (s : Network) (event : TreeChanged) : Prop :=
  event ∈ s.unseen ∨ event ∈ s.relay.path.inFlight ∨ event ∈ s.pool.map Submission.event

/-- The L1 side of the run invariant: an event on its way was emitted, and
every message carries the root of its event or of a later one. -/
structure Carried (s : Network) : Prop where
  core : s.chains.bridge.starknetCoreContract = s.chains.world.coreAddress
  starkWorldID : s.chains.bridge.starkWorldIDAddress = env.accounts.worldID
  latest : ∀ event, s.changes.getLast? = some event →
    s.chains.world.latestRoot s.chains.bridge.worldIDIdentityManager = some event.postRoot
  emitted : ∀ event, s.OnItsWay event → event ∈ s.changes
  sent : List.Forall₂ (Carries env.accounts s.changes) s.chains.channel.sent s.sentFor

variable {env} {s : Network}

theorem Start.carried {c₀ : L2.Chain} (h : Start env c₀ s) : Carried env s where
  core := h.core
  starkWorldID := h.starkWorldID
  latest event hlast := by
    rw [h.fresh.2.2.2.1] at hlast
    cases hlast
  emitted event hway := by
    obtain ⟨hunseen, hpool, -⟩ := h.fresh
    obtain ⟨now, hrelay⟩ := h.relay
    rw [OnItsWay, hunseen, hpool, hrelay] at hway
    rcases hway with hmem | hmem | hmem <;> cases hmem
  sent := by
    rw [h.channel, h.fresh.2.2.2.2]
    exact .nil

/-- A step of the relayer, the listener or the executor: the chains stay. -/
theorem Carried.of_chains {s' : Network} (h : Carried env s) (hchains : s'.chains = s.chains)
    (hchanges : s'.changes = s.changes) (hsentFor : s'.sentFor = s.sentFor)
    (hway : ∀ event, s'.OnItsWay event → s.OnItsWay event) : Carried env s' where
  core := by rw [hchains, h.core]
  starkWorldID := by rw [hchains, h.starkWorldID]
  latest := by rw [hchains, hchanges]; exact h.latest
  emitted event hmem := by rw [hchanges]; exact h.emitted event (hway event hmem)
  sent := by rw [hchains, hchanges, hsentFor]; exact h.sent

theorem Carried.setRoot (h : Carried env s) (postRoot : U256) :
    Carried env (s.setRoot env postRoot) where
  core := h.core
  starkWorldID := h.starkWorldID
  latest event hlast := by
    simp only [Network.setRoot, List.getLast?_concat, Option.some.injEq] at hlast
    subst hlast
    exact Function.update_self ..
  emitted event hway := by
    rcases hway with hmem | hmem | hmem
    · rcases List.mem_append.mp hmem with hold | hnew
      · exact List.mem_append_left _ (h.emitted event (.inl hold))
      · exact List.mem_append_right _ hnew
    · exact List.mem_append_left _ (h.emitted event (.inr (.inl hmem)))
    · exact List.mem_append_left _ (h.emitted event (.inr (.inr hmem)))
  sent := h.sent.imp fun _ _ hcarries => hcarries.append _

/-- What a call of `propagateRoot` leaves as it is. -/
theorem propagateRoot_frame {bridge : L1.StarkStateBridge.Storage} {this : EthAddress}
    {w : L1.World} {msg : L1.Msg} {o : L1.StarkStateBridge.Outcome}
    (h : L1.StarkStateBridge.exec bridge this w msg .propagateRoot = .ok o) :
    o.bridge = bridge ∧ o.world.coreAddress = w.coreAddress
      ∧ o.world.latestRoot = w.latestRoot := by
  rcases L1.StarkStateBridge.exec_cases h with
    ⟨-, hbridge, hworld, -⟩ | ⟨_, _, -, -, -, hbridge, hworld, -⟩
  · rw [hbridge, hworld]
    exact ⟨rfl, rfl, rfl⟩
  · rw [hbridge, hworld]
    exact ⟨rfl, rfl, rfl⟩

/-- What is read when the last root set is `last`. -/
theorem Carries.last {acc : Accounts} {changes : List TreeChanged} {log : L1.LogMessageToL2}
    {event last : TreeChanged} (hlast : changes.getLast? = some last)
    (hroot : System.rootOf acc log = some last.postRoot) (hmem : event ∈ changes) :
    Carries acc changes log (event, changes.length) := by
  have hpos : 0 < changes.length := List.length_pos_of_mem hmem
  refine ⟨changes.length - 1, last, ?_, ?_, hroot, ?_⟩
  · exact (Nat.sub_add_cancel hpos).symm
  · rw [← List.getLast?_eq_getElem?, hlast]
  · rwa [Nat.sub_add_cancel hpos, List.take_length]

/-- An inclusion: the bridge reads the last root set, which is that of the
transaction's event or of a later one. -/
theorem Carried.callPropagateRoot (h : Carried env s) {i : Nat} {tx : Submission}
    (htx : s.pool[i]? = some tx) : Carried env (s.callPropagateRoot env i tx) := by
  have hevent : tx.event ∈ s.changes :=
    h.emitted tx.event (.inr (.inr (List.mem_map_of_mem (List.mem_of_getElem? htx))))
  have hemitted : ∀ event, (s.callPropagateRoot env i tx).OnItsWay event → event ∈ s.changes := by
    intro event hway
    refine h.emitted event (hway.imp_right (Or.imp_right fun hmem => ?_))
    exact ((List.eraseIdx_sublist s.pool i).map Submission.event).subset hmem
  cases hexec : L1.StarkStateBridge.exec s.chains.bridge env.accounts.bridge s.chains.world
      ⟨env.wallet, tx.value⟩ .propagateRoot with
  | error e =>
      -- a transaction that reverts sends nothing
      have hchains : (s.callPropagateRoot env i tx).chains = s.chains := by
        simp only [Network.callPropagateRoot, System.step, hexec]
      have hsentFor : (s.callPropagateRoot env i tx).sentFor = s.sentFor := by
        simp only [Network.callPropagateRoot, hexec, List.map_nil, List.append_nil]
      refine ⟨?_, ?_, ?_, hemitted, ?_⟩
      · rw [hchains, h.core]
      · rw [hchains, h.starkWorldID]
      · rw [hchains]
        exact h.latest
      · rw [hchains, hsentFor]
        exact h.sent
  | ok o =>
      obtain ⟨last, hlast⟩ : ∃ last, s.changes.getLast? = some last :=
        Option.isSome_iff_exists.mp (by simp [List.ne_nil_of_mem hevent])
      obtain ⟨log, hlogs, hroot⟩ := System.propagateRoot_log hexec h.core h.starkWorldID
        (h.latest last hlast)
      have hchains : (s.callPropagateRoot env i tx).chains
          = ⟨o.bridge, o.world, s.chains.channel.send [log], s.chains.worldID⟩ := by
        simp only [Network.callPropagateRoot, System.step, hexec, hlogs]
      have hsentFor : (s.callPropagateRoot env i tx).sentFor
          = s.sentFor ++ [(tx.event, s.changes.length)] := by
        simp only [Network.callPropagateRoot, hexec, hlogs, List.map_cons, List.map_nil]
      obtain ⟨hbridge, hcore, hlatest⟩ := propagateRoot_frame hexec
      refine ⟨?_, ?_, ?_, hemitted, ?_⟩
      · rw [hchains, hbridge, hcore, h.core]
      · rw [hchains, hbridge, h.starkWorldID]
      · rw [hchains, hbridge, hlatest]
        exact h.latest
      · rw [hchains, hsentFor, Channel.sent_send]
        exact List.rel_append h.sent (.cons (Carries.last hlast hroot hevent) .nil)

theorem step_deliver (s : System) (acc : Accounts) (i : Nat) (timestamp : U64) :
    (System.step acc s (.deliver i timestamp)).bridge = s.bridge
      ∧ (System.step acc s (.deliver i timestamp)).world = s.world
      ∧ (System.step acc s (.deliver i timestamp)).channel.sent = s.channel.sent := by
  simp only [System.step]
  split
  · split <;> exact ⟨rfl, rfl, rfl⟩
  · exact ⟨rfl, rfl, rfl⟩

theorem Carried.deliver (h : Carried env s) (i : Nat) (timestamp : U64) :
    Carried env (s.step env (.deliver i timestamp)) := by
  obtain ⟨hbridge, hworld, hsent⟩ := step_deliver s.chains env.accounts i timestamp
  refine ⟨?_, ?_, ?_, h.emitted, ?_⟩
  · simp only [step, hbridge, hworld, h.core]
  · simp only [step, hbridge, h.starkWorldID]
  · simp only [step, hbridge, hworld]
    exact h.latest
  · simp only [step, hsent]
    exact h.sent

/-- A step of the relayer brings no event on its way but the one it gets. -/
theorem OnItsWay.of_relay (feeType : Fee) {a : Relay.Action} {event : TreeChanged}
    (h : OnItsWay { s with relay := s.relay.step feeType a } event) :
    s.OnItsWay event ∨ a = .event event := by
  rcases h with hunseen | hflight | hpool
  · exact .inl (.inl hunseen)
  · exact (Relay.mem_of_mem_inFlight_step hflight).imp_left fun hold => .inr (.inl hold)
  · exact .inl (.inr (.inr hpool))

theorem Carried.step (h : Carried env s) (a : Action) : Carried env (s.step env a) := by
  cases a with
  | change postRoot => exact h.setRoot postRoot
  | log =>
      simp only [Network.step]
      split
      · rename_i event unseen hunseen _
        -- the event that is received was among the unseen
        refine h.of_chains rfl rfl rfl fun e hway => ?_
        rcases OnItsWay.of_relay (s := { s with unseen }) env.feeType hway with hold | hnew
        · refine hold.imp_left fun hmem => ?_
          rw [hunseen]
          exact List.mem_cons_of_mem event hmem
        · obtain rfl := Relay.Action.event.inj hnew
          rw [OnItsWay, hunseen]
          exact .inl List.mem_cons_self
      · exact h
  | miss =>
      exact h.of_chains rfl rfl rfl fun _ hway => hway.imp_left List.mem_of_mem_tail
  | relay a =>
      simp only [Network.step]
      split
      · rename_i hpermits
        refine h.of_chains rfl rfl rfl fun e hway => ?_
        rcases OnItsWay.of_relay env.feeType hway with hold | rfl
        · exact hold
        · cases hpermits
      · exact h
  | broadcast =>
      simp only [Network.step]
      split
      · rename_i event value hexecutor
        refine h.of_chains rfl rfl rfl fun e hway => ?_
        rcases hway with hmem | hmem | hmem
        · exact .inl hmem
        · exact .inr (.inl hmem)
        · rw [List.map_append, List.mem_append] at hmem
          rcases hmem with hold | hnew
          · exact .inr (.inr hold)
          · -- the event in the executor's hand
            obtain rfl := List.mem_singleton.mp hnew
            refine .inr (.inl ?_)
            rw [EventPath.inFlight, hexecutor]
            exact List.mem_cons_self
      · exact h
  | mine i =>
      simp only [Network.step]
      split
      · rename_i tx htx
        exact h.callPropagateRoot htx
      · exact h
  | deliver i timestamp => exact h.deliver i timestamp

/-! ## What L2 holds -/

/-- L2 had the root before the run, or a message with it was consumed. -/
def Consumed (acc : Accounts) (c₀ : L2.Chain) (s : System) (root : U256) : Prop :=
  c₀.storage.worldID.rootHistory root ≠ 0
    ∨ ∃ i ∈ s.channel.delivered, System.rootAt acc s i = some root

/-- The L2 side of the run invariant: StarkWorldID is the bridge's, and its
history has the roots consumed. -/
structure Received (acc : Accounts) (c₀ c : L2.Chain) (s : System) : Prop where
  worldID : s.worldID = some c
  owner : c.storage.crossDomainOwnable.l1Owner = acc.bridge
  history : ∀ root, c.storage.worldID.rootHistory root ≠ 0 ↔ Consumed acc c₀ s root

theorem Start.received {c₀ : L2.Chain} (h : Start env c₀ s) :
    Received env.accounts c₀ c₀ s.chains where
  worldID := h.worldID
  owner := h.owner
  history root := by simp [Consumed, h.channel]

/-- The roots after an accepted one. -/
theorem rootHistory_receiveRoot {storage : L2.StarkWorldID.Storage} {root : U256} {now : U64}
    (hnow : 0 < now.toNat) (r : U256) :
    ((L2.StarkWorldID.HandlerCall.receiveRoot root).effect storage now).worldID.rootHistory r ≠ 0
      ↔ r = root ∨ storage.worldID.rootHistory r ≠ 0 := by
  have htime : now.setWidth 128 ≠ 0 := by
    intro hzero
    have hw : (now.setWidth 128).toNat = now.toNat := BitVec.toNat_setWidth_of_le (by omega)
    rw [hzero] at hw
    exact Nat.ne_of_lt hnow hw
  simp only [L2.StarkWorldID.HandlerCall.effect]
  by_cases hr : r = root
  · subst hr
    rw [Function.update_self]
    exact iff_of_true htime (.inl rfl)
  · rw [Function.update_of_ne hr, or_iff_right hr]

/-- The roots consumed before a step are consumed after it. -/
theorem consumed_of_delivered_eq {acc : Accounts} {c₀ : L2.Chain} {s : System}
    {a : WorldIDBridge.Action} (h : (System.step acc s a).channel.delivered = s.channel.delivered)
    (root : U256) : Consumed acc c₀ (System.step acc s a) root ↔ Consumed acc c₀ s root := by
  rw [Consumed, Consumed, h]
  refine or_congr_right (exists_congr fun i => and_congr_right fun hi => ?_)
  rw [System.rootAt_of_extends (System.step_extends acc s a) (s.channel.bound i hi)]

/-- A delivery consumes the root of its message. -/
theorem consumed_of_delivered_cons {acc : Accounts} {c₀ : L2.Chain} {s : System}
    {a : WorldIDBridge.Action} {i : Nat} {root : U256} (hi : i < s.channel.sent.length)
    (hroot : System.rootAt acc s i = some root)
    (h : (System.step acc s a).channel.delivered = i :: s.channel.delivered) (r : U256) :
    Consumed acc c₀ (System.step acc s a) r ↔ r = root ∨ Consumed acc c₀ s r := by
  have hext := System.step_extends acc s a
  rw [Consumed, Consumed, h]
  simp only [List.exists_mem_cons_iff, System.rootAt_of_extends hext hi, hroot,
    Option.some.injEq]
  rw [or_left_comm, eq_comm]
  refine or_congr_right (or_congr_right (exists_congr fun j => and_congr_right fun hj => ?_))
  rw [System.rootAt_of_extends hext (s.channel.bound j hj)]

/-- One action of the chains, on a channel that carries roots only. -/
theorem Received.step {acc : Accounts} {c₀ c : L2.Chain} {s : System}
    (h : Received acc c₀ c s) (hbridge : acc.bridge ≠ 0)
    (hroots : ∀ log ∈ s.channel.sent, ∃ root, System.rootOf acc log = some root)
    {a : WorldIDBridge.Action} (htime : System.PositiveTime a) :
    ∃ c', Received acc c₀ c' (System.step acc s a) := by
  cases System.step_onL2 acc s a with
  | same hsame hdelivered =>
      refine ⟨c, hsame ▸ h.worldID, h.owner, fun root => ?_⟩
      rw [h.history, consumed_of_delivered_eq hdelivered]
  | deployed _ hbefore =>
      rw [h.worldID] at hbefore
      cases hbefore
  | @delivered i timestamp c' log haction hbefore hlog hflight hnext hdelivered =>
      subst haction
      obtain rfl : c = c' := Option.some.inj (h.worldID.symm.trans hbefore)
      obtain ⟨root, hroot⟩ := hroots log (List.mem_of_getElem? hlog)
      have hrootAt : System.rootAt acc s i = some root := by
        rw [System.rootAt, hlog, Option.bind_some, hroot]
      have hconsumed : ∀ r, Consumed acc c₀ (System.step acc s (.deliver i timestamp)) r
          ↔ r = root ∨ Consumed acc c₀ s r :=
        consumed_of_delivered_cons hflight.1 hrootAt hdelivered
      by_cases hfresh : c.storage.worldID.rootHistory root = 0
      · have haccepted := System.receive_fresh hroot h.owner hbridge hfresh timestamp
        refine ⟨_, hnext, ?_, fun r => ?_⟩
        · rw [haccepted]
          exact h.owner
        · rw [haccepted, rootHistory_receiveRoot htime, hconsumed, h.history]
      · have hrefused := System.receive_known hroot hfresh timestamp
        refine ⟨_, hnext, ?_, fun r => ?_⟩
        · rw [hrefused, h.owner]
        · -- the root was consumed before
          rw [hrefused, hconsumed, h.history, iff_or_self]
          rintro rfl
          exact (h.history r).mp hfresh

/-! ## Runs -/

/-- A message is consumed in a block of a positive timestamp. -/
def PositiveTime : Action → Prop
  | .deliver _ timestamp => 0 < timestamp.toNat
  | _ => True

/-- The chains take one step of their own, or none. -/
theorem chains_step (s : Network) {a : Action} (htime : PositiveTime a) :
    (s.step env a).chains = s.chains ∨ ∃ b, System.PositiveTime b
      ∧ (s.step env a).chains = System.step env.accounts s.chains b := by
  cases a with
  | change postRoot => exact .inr ⟨.environment _ _, trivial, rfl⟩
  | mine i =>
      simp only [Network.step]
      split
      · exact .inr ⟨.call _ _, trivial, rfl⟩
      · exact .inl rfl
  | deliver i timestamp => exact .inr ⟨.deliver i timestamp, htime, rfl⟩
  | miss => exact .inl rfl
  | _ =>
      simp only [Network.step]
      split <;> exact .inl rfl

/-- Every message on the channel carries a root. -/
theorem Carried.rootOf (h : Carried env s) :
    ∀ log ∈ s.chains.channel.sent, ∃ root, System.rootOf env.accounts log = some root := by
  intro log hlog
  obtain ⟨i, hi, rfl⟩ := List.getElem_of_mem hlog
  obtain ⟨hlen, hcarries⟩ := List.forall₂_iff_get.mp h.sent
  obtain ⟨_, last, _, _, hroot, _⟩ := hcarries i hi (hlen ▸ hi)
  exact ⟨last.postRoot, hroot⟩

/-- The message at a position carries the root that was the last one when it
was sent. -/
theorem Carried.rootAt (h : Carried env s) {i : Nat} (hi : i < s.chains.channel.sent.length) :
    ∃ k last, s.changesBefore i = some (k + 1) ∧ s.changes[k]? = some last
      ∧ System.rootAt env.accounts s.chains i = some last.postRoot := by
  obtain ⟨hlen, hcarries⟩ := List.forall₂_iff_get.mp h.sent
  have hi' : i < s.sentFor.length := hlen ▸ hi
  obtain ⟨k, last, hk, hlast, hroot, -⟩ := hcarries i hi hi'
  refine ⟨k, last, ?_, hlast, ?_⟩
  · rw [changesBefore, List.getElem?_eq_getElem hi', Option.map_some]
    exact congrArg some hk
  · rw [System.rootAt, List.getElem?_eq_getElem hi, Option.bind_some]
    exact hroot

/-- Two messages carry the same root exactly when no root was set between
them, if no root is set twice. -/
theorem Carried.rootAt_eq_iff (h : Carried env s) (hdistinct : s.changes.Nodup) {i j : Nat}
    (hi : i < s.chains.channel.sent.length) (hj : j < s.chains.channel.sent.length) :
    System.rootAt env.accounts s.chains i = System.rootAt env.accounts s.chains j
      ↔ s.changesBefore i = s.changesBefore j := by
  obtain ⟨k, last, hk, hlast, hroot⟩ := h.rootAt hi
  obtain ⟨l, last', hl, hlast', hroot'⟩ := h.rootAt hj
  rw [hk, hl, hroot, hroot', Option.some.injEq, Option.some.injEq, Nat.add_right_cancel_iff]
  constructor
  · intro heq
    have hsame : last = last' := by
      cases last
      cases last'
      exact congrArg TreeChanged.mk heq
    have hlt : k < s.changes.length := (List.getElem?_eq_some_iff.mp hlast).1
    exact (List.getElem?_inj hlt hdistinct).mp (by rw [hlast, hlast', hsame])
  · rintro rfl
    rw [hlast, Option.some.injEq] at hlast'
    rw [hlast']

theorem run_invariants {c₀ : L2.Chain} {s₀ : Network} (hstart : Start env c₀ s₀)
    {as : List Action} (htime : ∀ a ∈ as, PositiveTime a) :
    Carried env (run (step env) s₀ as)
      ∧ ∃ c, Received env.accounts c₀ c (run (step env) s₀ as).chains := by
  refine run_invariant (step env)
    (I := fun s => Carried env s ∧ ∃ c, Received env.accounts c₀ c s.chains)
    (P := fun _ a => PositiveTime a) ?_ ⟨hstart.carried, c₀, hstart.received⟩
    (along_of_forall _ htime)
  rintro s a ⟨hcarried, c, hreceived⟩ hpos
  refine ⟨hcarried.step a, ?_⟩
  rcases chains_step s hpos with hsame | ⟨b, hb, hnext⟩
  · rw [hsame]
    exact ⟨c, hreceived⟩
  · rw [hnext]
    exact hreceived.step hstart.bridge hcarried.rootOf hb

end Network

open Network in
/-- **When the event path pays for a root twice**: with no root set twice, two
messages carry the same root exactly when no root was set between the
inclusions of their transactions; and a message is refused as known exactly
when L2 had its root before the run, or has consumed another message sent
after the same number of changes. -/
theorem duplicates_iff {env : Setting} {c₀ : L2.Chain} {s₀ : Network} (hstart : Start env c₀ s₀)
    (as : List Network.Action) (htime : ∀ a ∈ as, Network.PositiveTime a)
    (hdistinct : (run (step env) s₀ as).changes.Nodup) :
    let s := run (step env) s₀ as
    let rootAt := System.rootAt env.accounts s.chains
    (∀ i j, i < s.chains.channel.sent.length → j < s.chains.channel.sent.length →
        (rootAt i = rootAt j ↔ s.changesBefore i = s.changesBefore j))
      ∧ ∃ c, s.chains.worldID = some c ∧ ∀ j, s.chains.channel.InFlight j →
          ∃ root, rootAt j = some root ∧ ∀ timestamp,
            ((L2.StarkWorldID.HandlerCall.receiveRoot root).exec c.storage
                env.accounts.bridge.toFelt timestamp = .error .cannotOverwriteRoot
              ↔ c₀.storage.worldID.rootHistory root ≠ 0
                ∨ ∃ i ∈ s.chains.channel.delivered, s.changesBefore i = s.changesBefore j) := by
  intro s rootAt
  obtain ⟨hcarried, c, hreceived⟩ := run_invariants hstart htime
  refine ⟨fun i j hi hj => hcarried.rootAt_eq_iff hdistinct hi hj, c, hreceived.worldID,
    fun j hflight => ?_⟩
  obtain ⟨_, last, -, -, hroot⟩ := hcarried.rootAt hflight.1
  refine ⟨last.postRoot, hroot, fun timestamp => ?_⟩
  have hobeys := System.obeys_bridge hreceived.owner hstart.bridge
  rw [L2.StarkWorldID.HandlerCall.receiveRoot_refused_iff hobeys, hreceived.history, Consumed]
  refine or_congr_right (exists_congr fun i => and_congr_right fun hi => ?_)
  have hlt := s.chains.channel.bound i hi
  rw [← hcarried.rootAt_eq_iff hdistinct hlt hflight.1, hroot]

namespace Network

/-! ## Two runs -/

def sampleSetting : Setting := ⟨System.sampleAccounts, 9, .default⟩

/-- The sample bridge with StarkWorldID deployed, and a relayer just started. -/
def sampleStart : Network where
  relay := .start 0
  chains := System.sampleDeployed
  unseen := []
  pool := []
  included := []
  changes := []
  sentFor := []

theorem start_sample : Start sampleSetting L2.Chain.sample sampleStart :=
  ⟨⟨0, rfl⟩, ⟨rfl, rfl, rfl, rfl, rfl⟩, rfl, rfl, rfl, rfl, rfl, by decide⟩

/-- The propagation for the next event, whose transaction is included and
succeeds. -/
def propagation : List Action :=
  [.relay .recv, .broadcast, .mine 0, .relay (.propagated (.ok ()))]

/-- Two roots are set before the transaction for the first is included. -/
def lateInclusion : List Action :=
  [.change 6, .change 7, .log, .log] ++ propagation ++ propagation ++ [.deliver 0 100]

/-- Each root is propagated before the next is set. -/
def timelyInclusion : List Action :=
  [.change 6, .log] ++ propagation ++ [.change 7, .log] ++ propagation ++ [.deliver 0 100]

/-- Both transactions carry the second root, and the message that is still in
flight will be refused. -/
theorem late_inclusion_pays_twice :
    let s := run (step sampleSetting) sampleStart lateInclusion
    s.changes.Nodup ∧ s.relay.succeeded = [7, 6] ∧ s.sentFor.map Prod.fst = [⟨6⟩, ⟨7⟩]
      ∧ System.rootAt sampleSetting.accounts s.chains 0 = some 7
      ∧ System.rootAt sampleSetting.accounts s.chains 1 = some 7
      ∧ s.chains.channel.InFlight 1
      ∧ s.chains.worldID.map (fun c =>
          (L2.StarkWorldID.HandlerCall.receiveRoot 7).exec c.storage
            sampleSetting.accounts.bridge.toFelt 101)
        = some (.error .cannotOverwriteRoot) := by
  refine ⟨?_, rfl, rfl, rfl, rfl, ?_, rfl⟩ <;> decide

theorem duplicates_iff_sample :
    let s := run (step sampleSetting) sampleStart timelyInclusion
    System.rootAt sampleSetting.accounts s.chains 0
      ≠ System.rootAt sampleSetting.accounts s.chains 1 := by
  intro s heq
  have hsame := ((duplicates_iff start_sample timelyInclusion
    (by simp [PositiveTime, timelyInclusion, propagation]) (by decide)).1 0 1 (by decide)
    (by decide)).mp heq
  exact absurd hsame (by decide)

end Network

end WorldIDBridge
