import WorldIDBridge.Service.Confirmation
import WorldIDBridge.Service.Spending
import WorldIDBridge.Service.Success
import WorldIDBridge.System.Network

/-!
# The service between the two chains

`Network` takes a propagation for one step and lets the executor broadcast as it
likes; it succeeds once a transaction for its event is included. Here the process
is between the chains, with each request of `propagate_root_with_retry`: what it
hands to the node is what a block may include, under the nonces the node
answered, and it goes on with the receipts it gets. The poller rests.

The module says that this is a run of `Network`. What is to be shown is that a
receipt confirms the event in hand: the transaction it is for was broadcast for
that event, since the nonces of two events are apart.
-/

namespace WorldIDBridge

open Prog Service TransitionRun

/-! ## The whole -/

/-- A transaction handed to the node, with the event the call was for. -/
structure Broadcast where
  event : TreeChanged
  tx : Eip1559Transaction

/-- What `Network` sees of it. -/
def Broadcast.submission (b : Broadcast) : Submission := ⟨b.event, b.tx.value⟩

/-- The fields are those of `Network`, with the process for the relay's tasks and
the transactions in full. -/
structure Deployment where
  process : Process
  chains : System
  unseen : List TreeChanged
  pool : List Broadcast
  included : List Broadcast
  changes : List TreeChanged
  sentFor : List (TreeChanged × Nat)

namespace Deployment

structure Setting where
  network : Network.Setting
  chainId : U64
  blockConfirmations : Nat

/-- The service is told the bridge of the network, and has the wallet's key. -/
def Setting.config (env : Setting) : Config where
  l1BridgeAddress := env.network.accounts.bridge
  walletAddress := env.network.wallet
  chainId := env.chainId
  blockConfirmations := env.blockConfirmations

inductive Action where
  | change (postRoot : U256)
  | log
  | miss
  /-- A step of the service, or another transaction of the wallet. -/
  | service (a : Process.Action)
  | mine (i : Nat)
  | deliver (i : Nat) (timestamp : U64)

/-- The steps of the service that may be taken on their own: the events come
from L1, the inclusions are those of the pool, the poller rests. -/
def permits : Process.Action → Bool
  | .task (.event _) => false
  | .task .poll => false
  | .mine _ => false
  | _ => true

/-- What the executor handed to the node between two states of the service, for
the event in its hand. -/
def handed (before after : Process) : List Broadcast :=
  let fresh := after.submitters.broadcast.length - before.submitters.broadcast.length
  before.relay.path.executor.inHand.flatMap fun event =>
    (after.submitters.broadcast.take fresh).map fun tx => ⟨event, tx⟩

variable (env : Setting)

def setRoot (s : Deployment) (postRoot : U256) : Deployment :=
  let latestRoot := Function.update s.chains.world.latestRoot
    s.chains.bridge.worldIDIdentityManager (some postRoot)
  { s with
    chains := System.step env.network.accounts s.chains
      (.environment latestRoot s.chains.world.accepts)
    unseen := s.unseen ++ [⟨postRoot⟩]
    changes := s.changes ++ [⟨postRoot⟩] }

/-- The process takes a step; what it hands to the node comes into the pool. -/
def serve (s : Deployment) (a : Process.Action) : Deployment :=
  let process := s.process.step env.network.feeType env.config a
  { s with process, pool := s.pool ++ handed s.process process }

/-- A transaction of the pool is included. -/
def takeUp (s : Deployment) (i : Nat) (b : Broadcast) : Deployment :=
  { s with
    process := s.process.step env.network.feeType env.config (.mine b.tx)
    pool := s.pool.eraseIdx i
    included := s.included ++ [b] }

/-- The bridge executes `propagateRoot()`. -/
def callPropagateRoot (s : Deployment) (b : Broadcast) : Deployment :=
  let acc := env.network.accounts
  let msg : L1.Msg := ⟨b.tx.fromAddress, b.tx.value⟩
  let logs :=
    match L1.StarkStateBridge.exec s.chains.bridge acc.bridge s.chains.world msg
        .propagateRoot with
    | .ok o => o.logs
    | .error _ => []
  { s with
    chains := System.step acc s.chains (.call msg .propagateRoot)
    sentFor := s.sentFor ++ logs.map fun _ => (b.event, s.changes.length) }

/-- A transaction is for the bridge by its address, and for `propagateRoot()` by
its data. A block takes it under the wallet's next nonce only. -/
def step (s : Deployment) : Action → Deployment
  | .change postRoot => s.setRoot env postRoot
  | .log =>
      match s.unseen, s.process.relay.path.listener, s.process.exited with
      | event :: unseen, .listening, false => { s with unseen }.serve env (.task (.event event))
      | _, _, _ => s
  | .miss => { s with unseen := s.unseen.tail }
  | .service a => if permits a = true then s.serve env a else s
  | .mine i =>
      match s.pool[i]? with
      | some b =>
          if b.tx.nonce.toNat = s.process.submitters.count then
            if b.tx.toAddress = env.network.accounts.bridge ∧ b.tx.data = propagateRootCalldata then
              (s.takeUp env i b).callPropagateRoot env b
            else s.takeUp env i b
          else s
      | none => s
  | .deliver i timestamp =>
      { s with chains := System.step env.network.accounts s.chains (.deliver i timestamp) }

/-- The state `Network` has of it. -/
def toNetwork (s : Deployment) : Network where
  relay := s.process.relay
  chains := s.chains
  unseen := s.unseen
  pool := s.pool.map Broadcast.submission
  included := s.included.map Broadcast.submission
  changes := s.changes
  sentFor := s.sentFor

structure Start (c₀ : L2.Chain) (s : Deployment) : Prop where
  process : ∃ now count, s.process = .start now count
  network : Network.Start env.network c₀ s.toNetwork

/-- What the chains and the node are trusted with: a block on L2 has a positive
timestamp, and a receipt is for a transaction that was included. -/
def Truthful (s : Deployment) : Action → Prop
  | .deliver _ timestamp => 0 < timestamp.toNat
  | .service (.reply _ ⟨.awaitReceipt tx _, .ok (some _)⟩) => ∃ b ∈ s.included, b.tx = tx
  | _ => True

variable {env}

/-! ## Between two propagations -/

/-- The executor is to take the next event, or estimates the fee for one. -/
def ready : Executor → Bool
  | .receiving => true
  | .estimating _ _ => true
  | _ => false

/-- An executor that is not ready is where it was after any step but a return. -/
theorem executor_of_task (feeType : Fee) (s : Relay) {b : Relay.Action}
    (hb : Process.isReturn b = false) (h : ready s.path.executor = false) :
    (s.step feeType b).path.executor = s.path.executor := by
  have hpath : (s.step feeType b).path = s.path ∨ ∃ c, (∀ r, c ≠ .propagated r)
      ∧ (s.step feeType b).path = s.path.step feeType c := Process.path_of_task s hb
  rcases hpath with hsame | ⟨c, hc, hnext⟩
  · rw [hsame]
  · rw [hnext]
    generalize s.path = path at h
    obtain ⟨listener, channel, executor, offered, attempted⟩ := path
    cases c with
    | send event =>
        cases listener with
        | listening => exact EventPath.executor_sendEvent ..
        | _ => rfl
    | sendAgain =>
        cases listener with
        | sending event => exact EventPath.executor_sendEvent ..
        | _ => rfl
    | giveUp => cases listener <;> rfl
    | recv =>
        cases executor with
        | receiving => cases h
        | _ => rfl
    | estimated outcome =>
        cases executor with
        | estimating event root => cases h
        | _ => rfl
    | propagated outcome => exact absurd rfl (hc outcome)

/-- The poller rests until its deadline is over. -/
theorem poller_of_task (feeType : Fee) {s : Relay} (h : s.poller = .waiting) {b : Relay.Action}
    (hb : b ≠ .poll) : (s.step feeType b).poller = .waiting := by
  cases b with
  | event event => exact (Relay.frame_event feeType s event).1.trans h
  | poll => exact absurd rfl hb
  | fetched l1Root response => simp [Relay.step, h]
  | pollEstimated outcome => simp [Relay.step, h]
  | pollPropagated outcome => simp [Relay.step, h]
  | _ => exact h

/-- The calls made between two states of the tasks are no transactions yet. -/
theorem count_callsMade (config : Config) (before after : Relay) (s : Submitters) :
    (run (Submitters.step config) s (Process.callsMade before after)).count = s.count := by
  have hcall : ∀ a ∈ Process.callsMade before after, ∃ t value, a = .call t value := by
    intro a ha
    obtain ⟨t, -, hmade⟩ := List.mem_filterMap.mp ha
    obtain ⟨value, -, rfl⟩ := Option.map_eq_some_iff.mp hmade
    exact ⟨t, value, rfl⟩
  refine run_invariant (Submitters.step config) (I := fun s' : Submitters => s'.count = s.count)
    (P := fun _ a => ∃ t value, a = .call t value) ?_ rfl (along_of_forall _ hcall)
  intro s' a hcount hmade
  obtain ⟨t, value, rfl⟩ := hmade
  simp only [Submitters.step]
  split
  · exact hcount
  · exact hcount

/-! ## Whose a nonce is -/

/-- The call under way began when the wallet's count was `floor`: the broadcasts
under this nonce and above are for its event, none is above the nonce it was
answered last, and the receipts it got are for transactions that were included. -/
structure Separated (floor : Nat) (event : TreeChanged) (w : Known) (count : Nat)
    (pool included : List Broadcast) : Prop where
  began : floor ≤ count
  nonce : ∀ nonce, w.nonce = some nonce → floor ≤ nonce.toNat ∧ nonce.toNat ≤ count
  confirmed : ∀ tx, w.confirmed = some tx → ∃ b ∈ included, b.tx = tx
  broadcast : ∀ b, b ∈ pool ∨ b ∈ included → b.tx.nonce.toNat < floor
    ∨ b.event = event ∧ ∃ nonce, w.nonce = some nonce ∧ b.tx.nonce.toNat ≤ nonce.toNat

/-- **The invariant**: what was broadcast before the propagation in hand, or
before the next one, has a nonce below those it is answered. -/
structure Owned (config : Config) (p : Process) (pool included : List Broadcast) : Prop where
  inStep : Process.InStep config p
  resting : p.relay.poller = .waiting
  inBroadcast : ∀ b ∈ pool, b.tx ∈ p.submitters.broadcast
  ours : ∀ b, b ∈ pool ∨ b ∈ included → b.tx.fromAddress = config.walletAddress
    ∧ IsPropagateRoot config b.tx.value b.tx
  past : ∀ b ∈ included, b.tx.nonce.toNat < p.submitters.count
  between : ready p.relay.path.executor = true →
    ∀ b, b ∈ pool ∨ b ∈ included → b.tx.nonce.toNat < p.submitters.count
  call : ∀ event value prog, p.relay.path.executor = .propagating event value →
    p.submitters.calls .executor = some prog → ∃ floor w,
      prog.wp (known config.walletAddress) Confirms w
        ∧ Separated floor event w p.submitters.count pool included

variable {config : Config} {p p' : Process} {pool pool' included included' : List Broadcast}

theorem Separated.mono {floor count count' : Nat} {event : TreeChanged} {w : Known}
    (h : Separated floor event w count pool included) (hcount : count ≤ count')
    (hold : ∀ b, b ∈ pool' ∨ b ∈ included' → b ∈ pool ∨ b ∈ included)
    (hincluded : ∀ b ∈ included, b ∈ included') :
    Separated floor event w count' pool' included' where
  began := Nat.le_trans h.began hcount
  nonce nonce hnonce := by
    obtain ⟨hfloor, hle⟩ := h.nonce nonce hnonce
    exact ⟨hfloor, Nat.le_trans hle hcount⟩
  confirmed tx htx := by
    obtain ⟨b, hb, heq⟩ := h.confirmed tx htx
    exact ⟨b, hincluded b hb, heq⟩
  broadcast b hb := h.broadcast b (hold b hb)

/-- A step beside the tasks: the count may grow, and what is in the pool may be
included. -/
theorem Owned.mono (h : Owned config p pool included) (hrelay : p'.relay = p.relay)
    (hcalls : p'.submitters.calls = p.submitters.calls)
    (hbroadcast : p'.submitters.broadcast = p.submitters.broadcast)
    (hcount : p.submitters.count ≤ p'.submitters.count) (hpool : ∀ b ∈ pool', b ∈ pool)
    (hnew : ∀ b ∈ included', b ∈ included
      ∨ b ∈ pool ∧ b.tx.nonce.toNat < p'.submitters.count)
    (hincluded : ∀ b ∈ included, b ∈ included') : Owned config p' pool' included' := by
  have hold : ∀ b, b ∈ pool' ∨ b ∈ included' → b ∈ pool ∨ b ∈ included := by
    intro b hb
    rcases hb with hb | hb
    · exact .inl (hpool b hb)
    · exact (hnew b hb).elim .inr fun hin => .inl hin.1
  refine ⟨h.inStep.of_calls hrelay hcalls, hrelay ▸ h.resting, ?_, ?_, ?_, ?_, ?_⟩
  · intro b hb
    rw [hbroadcast]
    exact h.inBroadcast b (hpool b hb)
  · exact fun b hb => h.ours b (hold b hb)
  · intro b hb
    rcases hnew b hb with hin | ⟨-, hlt⟩
    · exact Nat.lt_of_lt_of_le (h.past b hin) hcount
    · exact hlt
  · intro hready b hb
    rw [hrelay] at hready
    exact Nat.lt_of_lt_of_le (h.between hready b (hold b hb)) hcount
  · intro event value prog hexecutor hcall
    rw [hrelay] at hexecutor
    rw [hcalls] at hcall
    obtain ⟨floor, w, hwp, hsep⟩ := h.call event value prog hexecutor hcall
    exact ⟨floor, w, hwp, hsep.mono hcount hold hincluded⟩

/-- A step of a task: a call it makes begins at the count of now. -/
theorem Owned.task (h : Owned config p pool included) (feeType : Fee) {b : Relay.Action}
    (hb : Process.isReturn b = false) (hpoll : b ≠ .poll) :
    Owned config { p with
      relay := p.relay.step feeType b
      submitters := run (Submitters.step config) p.submitters
        (Process.callsMade p.relay (p.relay.step feeType b)) } pool included := by
  obtain ⟨hcalls, hbroadcast⟩ :=
    Process.calls_callsMade config (p.relay.step feeType b) h.inStep.idle_iff
  have hcount := count_callsMade config p.relay (p.relay.step feeType b) p.submitters
  refine ⟨h.inStep.task hb, poller_of_task feeType h.resting hpoll, ?_, h.ours, ?_, ?_, ?_⟩
  · intro b' hb'
    rw [hbroadcast]
    exact h.inBroadcast b' hb'
  · intro b' hb'
    rw [hcount]
    exact h.past b' hb'
  · intro hready b' hb'
    rw [hcount]
    refine h.between ?_ b' hb'
    cases hbefore : ready p.relay.path.executor with
    | true => rfl
    | false =>
        rw [executor_of_task feeType p.relay hb hbefore, hbefore] at hready
        cases hready
  · intro event value prog hexecutor hcall
    rw [hcount]
    have hmade := (hcalls .executor).symm.trans hcall
    cases hbefore : ready p.relay.path.executor with
    | true =>
        -- the call was made just now
        have hnew : Process.newCall p.relay (p.relay.step feeType b) .executor = some value := by
          have hnone : Process.callValue p.relay .executor = none := by
            show Process.executorValue p.relay.path.executor = none
            cases hexec : p.relay.path.executor with
            | propagating event' value' =>
                rw [hexec] at hbefore
                cases hbefore
            | _ => rfl
          rw [Process.newCall, hnone]
          exact congrArg Process.executorValue hexecutor
        rw [hnew] at hmade
        obtain rfl := Option.some.inj hmade
        refine ⟨p.submitters.count, ⟨none, none⟩, retryLoop_known config value retryDelays _, ?_⟩
        refine ⟨Nat.le_refl _, ?_, ?_, fun b' hb' => .inl (h.between hbefore b' hb')⟩
        · intro nonce hnonce
          cases hnonce
        · intro tx htx
          cases htx
    | false =>
        have hsame := executor_of_task feeType p.relay hb hbefore
        have hnew : Process.newCall p.relay (p.relay.step feeType b) .executor = none := by
          have hvalue : Process.callValue p.relay .executor = some value :=
            congrArg Process.executorValue (hsame.symm.trans hexecutor)
          rw [Process.newCall, hvalue]
          rfl
        rw [hnew] at hmade
        exact h.call event value prog (hsame.symm.trans hexecutor) hmade

/-! ### An answer to the call -/

section Answer

variable {floor count : Nat} {event : TreeChanged} {value : U256} {w : Known}
  {wallet : EthAddress} {x : Exchange Request Response}

/-- What an exchange says of the chain is true. -/
def TrueOf (included : List Broadcast) (x : Exchange Request Response) : Prop :=
  ∀ tx blockConfirmations receipt, x = ⟨.awaitReceipt tx blockConfirmations, .ok (some receipt)⟩ →
    ∃ b ∈ included, b.tx = tx

/-- An answer leaves the nonces apart: one that is answered is the count, and what
is sent has the last one. -/
theorem Separated.next (h : Separated floor event w count pool included)
    (hallowed : (known wallet).allows w x.1) (hlatest : isLatest wallet count x = true)
    (htrue : TrueOf included x) :
    Separated floor event ((known wallet).next w x.1 x.2) count
      (pool ++ (sentIn x).map fun tx => ⟨event, tx⟩) included := by
  obtain ⟨q, a⟩ := x
  -- an exchange that neither answers a nonce nor sends
  have hsame : sentIn ⟨q, a⟩ = [] → Separated floor event w count
      (pool ++ (sentIn ⟨q, a⟩).map fun tx => ⟨event, tx⟩) included := by
    intro hnone
    rw [hnone, List.map_nil, List.append_nil]
    exact h
  cases q with
  | getTransactionCount fromAddress =>
      cases a with
      | error e => exact hsame rfl
      | ok nonce =>
          have hcount : nonce.toNat = count := of_decide_eq_true hlatest hallowed
          have hstay := hsame rfl
          refine ⟨h.began, fun nonce' hnonce' => ?_, hstay.confirmed, fun b hb => ?_⟩
          · obtain rfl := Option.some.inj hnonce'
            exact ⟨hcount ▸ h.began, Nat.le_of_eq hcount⟩
          · refine (hstay.broadcast b hb).imp_right fun hown => ⟨hown.1, nonce, rfl, ?_⟩
            obtain ⟨-, nonce', hnonce', hle⟩ := hown
            have hbelow := (h.nonce nonce' hnonce').2
            exact Nat.le_trans hle (Nat.le_trans hbelow (Nat.le_of_eq hcount.symm))
  | sendRawTransaction tx =>
      refine ⟨h.began, h.nonce, h.confirmed, fun b hb => ?_⟩
      rcases hb with hpool | hin
      · rcases List.mem_append.mp hpool with hold | hnew
        · exact h.broadcast b (.inl hold)
        · obtain rfl := List.mem_singleton.mp hnew
          exact .inr ⟨rfl, tx.nonce, hallowed, Nat.le_refl _⟩
      · exact h.broadcast b (.inr hin)
  | awaitReceipt tx blockConfirmations =>
      cases a with
      | error e => exact hsame rfl
      | ok receipt =>
          cases receipt with
          | none => exact hsame rfl
          | some receipt =>
              have hstay := hsame rfl
              refine ⟨hstay.began, hstay.nonce, fun tx' htx' => ?_, hstay.broadcast⟩
              obtain rfl := Option.some.inj htx'
              exact htrue tx blockConfirmations receipt rfl
  | _ => exact hsame rfl

/-- **A receipt confirms the event in hand**, and all nonces used are below the
count then. -/
theorem Separated.of_confirms (h : Separated floor event w count pool included)
    (hpast : ∀ b ∈ included, b.tx.nonce.toNat < count)
    (hconfirms : Confirms (.ok () : Except StateBridgeError Unit) w) :
    (∃ b ∈ included, b.event = event)
      ∧ ∀ b, b ∈ pool ∨ b ∈ included → b.tx.nonce.toNat < count := by
  obtain ⟨tx, hconfirmed, hnonce⟩ := hconfirms () rfl
  obtain ⟨b, hb, rfl⟩ := h.confirmed tx hconfirmed
  have hlt := hpast b hb
  have hfloor := (h.nonce _ hnonce).1
  constructor
  · rcases h.broadcast b (.inr hb) with hbelow | ⟨hevent, -⟩
    · exact absurd hbelow (Nat.not_lt.mpr hfloor)
    · exact ⟨b, hb, hevent⟩
  · intro b' hb'
    rcases h.broadcast b' hb' with hbelow | ⟨-, nonce, hnonce', hle⟩
    · exact Nat.lt_of_lt_of_le hbelow (Nat.le_trans hfloor (Nat.le_of_lt hlt))
    · obtain rfl := Option.some.inj (hnonce.symm.trans hnonce')
      exact Nat.lt_of_le_of_lt hle hlt

/-- What an answer hands to the node is a `propagateRoot` of the wallet, with the
value of the call. -/
theorem asked_of_answered (h : Process.InStep config p)
    {prog prog' : Service.Task (Except StateBridgeError Unit)}
    (hanswered : Process.Answered config p .executor x prog prog')
    (hexecutor : p.relay.path.executor = .propagating event value) {tx : Eip1559Transaction}
    (htx : tx ∈ sentIn x) :
    tx.fromAddress = config.walletAddress ∧ IsPropagateRoot config value tx := by
  obtain ⟨value', hvalue', a, -, rfl⟩ := Process.accounted_of_answered h hanswered htx
  have hcall : Process.executorValue p.relay.path.executor = some value' := hvalue'
  rw [hexecutor] at hcall
  obtain rfl := Option.some.inj hcall
  exact ⟨rfl, rfl, rfl, rfl⟩

/-- The pool with what an answer hands over. -/
theorem Owned.pool_answered (h : Owned config p pool included)
    {prog prog' : Service.Task (Except StateBridgeError Unit)}
    (hanswered : Process.Answered config p .executor x prog prog')
    (hexecutor : p.relay.path.executor = .propagating event value) :
    let pool' := pool ++ (sentIn x).map fun tx => ⟨event, tx⟩
    (∀ b ∈ pool', b.tx ∈ sentIn x ++ p.submitters.broadcast)
      ∧ ∀ b, b ∈ pool' ∨ b ∈ included →
        b.tx.fromAddress = config.walletAddress ∧ IsPropagateRoot config b.tx.value b.tx := by
  have hnew : ∀ b ∈ (sentIn x).map fun tx => (⟨event, tx⟩ : Broadcast), b.tx ∈ sentIn x := by
    intro b hb
    obtain ⟨tx, htx, rfl⟩ := List.mem_map.mp hb
    exact htx
  refine ⟨fun b hb => ?_, fun b hb => ?_⟩
  · rcases List.mem_append.mp hb with hold | hfresh
    · exact List.mem_append_right _ (h.inBroadcast b hold)
    · exact List.mem_append_left _ (hnew b hfresh)
  · rcases hb with hpool | hin
    · rcases List.mem_append.mp hpool with hold | hfresh
      · exact h.ours b (.inl hold)
      · obtain ⟨hfrom, hasks⟩ := asked_of_answered h.inStep hanswered hexecutor (hnew b hfresh)
        exact ⟨hfrom, hasks.toAddress, hasks.data, rfl⟩
    · exact h.ours b (.inr hin)

/-- A call that returns successfully has its event included. -/
theorem Owned.reply (h : Owned config p pool included) (feeType : Fee)
    {prog prog' : Service.Task (Except StateBridgeError Unit)}
    (hanswered : Process.Answered config p .executor x prog prog')
    (hexecutor : p.relay.path.executor = .propagating event value)
    (htrue : TrueOf included x) :
    Owned config { p with
        relay := Process.goOn feeType p.relay .executor prog'
        submitters := Process.answer p.submitters .executor prog' x }
      (pool ++ (sentIn x).map fun tx => ⟨event, tx⟩) included
    ∧ (prog' = .ret (.ok ()) → ∃ b ∈ included, b.event = event) := by
  obtain ⟨floor, w, hwp, hsep⟩ := h.call event value prog hexecutor hanswered.call
  obtain ⟨hallowed, hwp'⟩ := wp_of_reply? hwp hanswered.reply
  have hnext := hsep.next hallowed hanswered.latest htrue
  have hself : (Process.answer p.submitters .executor prog' x).calls .executor = some prog' := by
    simp [Process.answer]
  obtain ⟨hbroadcast, hours⟩ := h.pool_answered hanswered hexecutor
  by_cases hret : ∃ r, prog' = .ret r
  · obtain ⟨r, rfl⟩ := hret
    have hresting : (Process.goOn feeType p.relay .executor (.ret r)).poller = .waiting :=
      h.resting
    cases r with
    | ok _ =>
        obtain ⟨hevent, hbelow⟩ := hnext.of_confirms h.past hwp'
        refine ⟨⟨h.inStep.reply hanswered, hresting, hbroadcast, hours, h.past,
          fun _ => hbelow, ?_⟩, fun _ => hevent⟩
        intro event' value' prog'' hexecutor' _
        simp [Process.goOn, Process.returns, Relay.step, Relay.pathStep, EventPath.step,
          hexecutor] at hexecutor'
    | error e =>
        -- the executor is gone
        have hgone : (Process.goOn feeType p.relay .executor (.ret (.error e))).path.executor
            = .exited (.error (.propagateRoot e)) := by
          simp [Process.goOn, Process.returns, Relay.step, Relay.pathStep, EventPath.step,
            EventPath.exit, hexecutor]
        refine ⟨⟨h.inStep.reply hanswered, hresting, hbroadcast, hours, h.past, ?_, ?_⟩, ?_⟩
        · intro hready
          rw [hgone] at hready
          cases hready
        · intro event' value' prog'' hexecutor' _
          rw [hgone] at hexecutor'
          cases hexecutor'
        · intro hok
          cases hok
  · have hgoOn : Process.goOn feeType p.relay .executor prog' = p.relay :=
      Process.goOn_of_ne_ret p.relay .executor hret
    refine ⟨⟨h.inStep.reply hanswered, ?_, hbroadcast, hours, h.past, ?_, ?_⟩, ?_⟩
    · rw [hgoOn]
      exact h.resting
    · intro hready
      rw [hgoOn, hexecutor] at hready
      cases hready
    · intro event' value' prog'' hexecutor' hcall
      rw [hgoOn, hexecutor] at hexecutor'
      cases hexecutor'
      obtain rfl := Option.some.inj (hself.symm.trans hcall)
      exact ⟨floor, _, hwp', hnext⟩
    · intro hok
      exact absurd ⟨_, hok⟩ hret

end Answer

/-! ## The steps of the network -/

/-- From `s` to `s'` the network takes a few steps. -/
def Simulates (env : Setting) (s s' : Deployment) : Prop :=
  ∃ bs, (∀ b ∈ bs, Network.PositiveTime b)
    ∧ s'.toNetwork = run (Network.step env.network) s.toNetwork bs

variable {s s' : Deployment}

theorem Simulates.none (h : s'.toNetwork = s.toNetwork) : Simulates env s s' :=
  ⟨[], by simp, h⟩

theorem Simulates.one {b : Network.Action} (hb : Network.PositiveTime b)
    (h : s'.toNetwork = s.toNetwork.step env.network b) : Simulates env s s' :=
  ⟨[b], by simp [hb], h⟩

theorem handed_of_broadcast_eq {before after : Process}
    (h : after.submitters.broadcast = before.submitters.broadcast) : handed before after = [] := by
  simp [handed, h]

theorem handed_of_sent {before after : Process} {event : TreeChanged} {value : U256}
    (sent : List Eip1559Transaction)
    (hexecutor : before.relay.path.executor = .propagating event value)
    (h : after.submitters.broadcast = sent ++ before.submitters.broadcast) :
    handed before after = sent.map fun tx => ⟨event, tx⟩ := by
  simp [handed, h, hexecutor]

/-- A step of the service that hands nothing to the node. -/
theorem serve_of_quiet {a : Process.Action}
    (h : (s.process.step env.network.feeType env.config a).submitters.broadcast
      = s.process.submitters.broadcast) :
    s.serve env a = { s with process := s.process.step env.network.feeType env.config a } := by
  simp [serve, handed_of_broadcast_eq h]

theorem serve_of_refused {a : Process.Action}
    (h : s.process.step env.network.feeType env.config a = s.process) : s.serve env a = s := by
  rw [serve_of_quiet (by rw [h]), h]

/-- The monitor, the end and the other transactions of the wallet are beside the
tasks. -/
theorem frame_beside (feeType : Fee) (config : Config) (p : Process) {a : Process.Action}
    (htask : ∀ b, a ≠ .task b) (hreply : ∀ t x, a ≠ .reply t x) (hmine : ∀ tx, a ≠ .mine tx) :
    (p.step feeType config a).relay = p.relay
      ∧ (p.step feeType config a).submitters.calls = p.submitters.calls
      ∧ (p.step feeType config a).submitters.broadcast = p.submitters.broadcast
      ∧ p.submitters.count ≤ (p.step feeType config a).submitters.count := by
  cases a with
  | task b => exact absurd rfl (htask b)
  | reply t x => exact absurd rfl (hreply t x)
  | mine tx => exact absurd rfl (hmine tx)
  | mineOther => exact ⟨rfl, rfl, rfl, Nat.le_succ _⟩
  | exit =>
      simp only [Process.step]
      split <;> exact ⟨rfl, rfl, rfl, Nat.le_refl _⟩
  | balances balance gasPrice =>
      simp only [Process.step]
      split
      · exact ⟨rfl, rfl, rfl, Nat.le_refl _⟩
      · split <;> exact ⟨rfl, rfl, rfl, Nat.le_refl _⟩

/-- What the node answered is true of the chain. -/
theorem Truthful.trueOf {t : Submitter} {x : Exchange Request Response}
    (h : Truthful s (.service (.reply t x))) : TrueOf s.included x := by
  intro tx blockConfirmations receipt hx
  subst hx
  exact h

/-- An answer to the executor: the broadcast first, then the return. -/
theorem simulates_reply {x : Exchange Request Response} {event : TreeChanged} {value : U256}
    {prog prog' : Service.Task (Except StateBridgeError Unit)}
    (h : Owned env.config s.process s.pool s.included)
    (hanswered : Process.Answered env.config s.process .executor x prog prog')
    (hexecutor : s.process.relay.path.executor = .propagating event value)
    (hevent : prog' = .ret (.ok ()) → ∃ b ∈ s.included, b.event = event) :
    Simulates env s { s with
      process := { s.process with
        relay := Process.goOn env.network.feeType s.process.relay .executor prog'
        submitters := Process.answer s.process.submitters .executor prog' x }
      pool := s.pool ++ (sentIn x).map fun tx => ⟨event, tx⟩ } := by
  -- the broadcasts
  have hsent : Simulates env s
      { s with pool := s.pool ++ (sentIn x).map fun tx => ⟨event, tx⟩ } := by
    have hvalue : ∀ tx ∈ sentIn x, tx.value = value := fun tx htx =>
      (asked_of_answered h.inStep hanswered hexecutor htx).2.value
    obtain ⟨q, a⟩ := x
    cases q with
    | sendRawTransaction tx =>
        refine .one (b := .broadcast) trivial ?_
        simp only [Network.step, toNetwork, hexecutor, List.map_append]
        rw [← hvalue tx (List.mem_singleton_self tx)]
        rfl
    | _ => exact .none (by simp [sentIn])
  obtain ⟨bs, htime, hrun⟩ := hsent
  by_cases hret : ∃ r, prog' = .ret r
  · obtain ⟨r, rfl⟩ := hret
    refine ⟨bs ++ [.relay (.propagated r)], ?_, ?_⟩
    · intro b hb
      rcases List.mem_append.mp hb with hold | hnew
      · exact htime b hold
      · obtain rfl := List.mem_singleton.mp hnew
        trivial
    · rw [run_snoc, ← hrun]
      have hpermits : Network.permits (toNetwork
          { s with pool := s.pool ++ (sentIn x).map fun tx => ⟨event, tx⟩ })
          (.propagated r) = true := by
        cases r with
        | error e => rfl
        | ok _ =>
            obtain ⟨b, hb, rfl⟩ := hevent rfl
            simp only [Network.permits, Network.confirmed, toNetwork, hexecutor,
              Executor.inHand_propagating, List.all_cons, List.all_nil, Bool.and_true]
            exact List.any_eq_true.mpr ⟨b.submission, List.mem_map_of_mem hb, decide_eq_true rfl⟩
      simp only [Network.step, if_pos hpermits]
      rfl
  · rw [Process.goOn_of_ne_ret _ _ hret]
    exact ⟨bs, htime, hrun⟩

/-- After the step the nonces are apart still, and the network took a few steps. -/
def Tracks (env : Setting) (s s' : Deployment) : Prop :=
  Owned env.config s'.process s'.pool s'.included ∧ Simulates env s s'

theorem tracks_refused (h : Owned env.config s.process s.pool s.included) {a : Process.Action}
    (hsame : s.process.step env.network.feeType env.config a = s.process) :
    Tracks env s (s.serve env a) := by
  rw [serve_of_refused hsame]
  exact ⟨h, .none rfl⟩

/-- A step of a task that goes on. -/
theorem serve_task (h : Owned env.config s.process s.pool s.included)
    (hlive : s.process.exited = false) {b : Relay.Action} (hreturn : Process.isReturn b = false) :
    s.serve env (.task b) = { s with process := { s.process with
      relay := s.process.relay.step env.network.feeType b
      submitters := run (Submitters.step env.config) s.process.submitters
        (Process.callsMade s.process.relay (s.process.relay.step env.network.feeType b)) } } := by
  have hstep : s.process.step env.network.feeType env.config (.task b) = { s.process with
      relay := s.process.relay.step env.network.feeType b
      submitters := run (Submitters.step env.config) s.process.submitters
        (Process.callsMade s.process.relay (s.process.relay.step env.network.feeType b)) } :=
    if_neg (by simp [hlive, hreturn])
  obtain ⟨-, hbroadcast⟩ := Process.calls_callsMade env.config
    (s.process.relay.step env.network.feeType b) h.inStep.idle_iff
  rw [serve_of_quiet (by rw [hstep]; exact hbroadcast), hstep]

theorem tracks_task (h : Owned env.config s.process s.pool s.included) {b : Relay.Action}
    (hpoll : b ≠ .poll) (hnet : Process.isReturn b = false → s.toNetwork.permits b = true) :
    Tracks env s (s.serve env (.task b)) := by
  by_cases hstop : (s.process.exited || Process.isReturn b) = true
  · exact tracks_refused h (if_pos hstop)
  obtain ⟨hlive, hreturn⟩ := Bool.or_eq_false_iff.mp (Bool.eq_false_iff.mpr hstop)
  rw [serve_task h hlive hreturn]
  refine ⟨h.task env.network.feeType hreturn hpoll, .one (b := .relay b) trivial ?_⟩
  simp only [Network.step, if_pos (hnet hreturn)]
  rfl

/-- The next event reaches the listener. -/
theorem tracks_log (h : Owned env.config s.process s.pool s.included) {event : TreeChanged}
    {unseen : List TreeChanged} (hunseen : s.unseen = event :: unseen)
    (hlistener : s.process.relay.path.listener = .listening) (hlive : s.process.exited = false) :
    Tracks env s ({ s with unseen }.serve env (.task (.event event))) := by
  rw [serve_task (s := { s with unseen }) h hlive rfl]
  refine ⟨h.task env.network.feeType rfl (by simp), .one (b := .log) trivial ?_⟩
  simp only [Network.step, toNetwork, hunseen, hlistener]

/-- An answer: only the executor waits for one. -/
theorem tracks_reply (h : Owned env.config s.process s.pool s.included) {t : Submitter}
    {x : Exchange Request Response} (htrue : TrueOf s.included x) :
    Tracks env s (s.serve env (.reply t x)) := by
  by_cases hexited : s.process.exited = true
  · exact tracks_refused h (if_pos (by rw [hexited, Bool.true_or]))
  by_cases htaken : ∃ prog prog', Process.Answered env.config s.process t x prog prog'
  swap
  · exact tracks_refused h (Process.step_refused htaken)
  obtain ⟨prog, prog', hanswered⟩ := htaken
  obtain ⟨value, tr, hvalue, -⟩ := h.inStep.answered hanswered
  cases t with
  | poller =>
      have hcall : Process.pollerValue s.process.relay.poller = some value := hvalue
      rw [h.resting] at hcall
      cases hcall
  | executor =>
      have hcall : Process.executorValue s.process.relay.path.executor = some value := hvalue
      cases hexecutor : s.process.relay.path.executor with
      | propagating event value' =>
          obtain ⟨howned, hevent⟩ := h.reply env.network.feeType hanswered hexecutor htrue
          have hstep : s.serve env (.reply .executor x) = { s with
              process := { s.process with
                relay := Process.goOn env.network.feeType s.process.relay .executor prog'
                submitters := Process.answer s.process.submitters .executor prog' x }
              pool := s.pool ++ (sentIn x).map fun tx => ⟨event, tx⟩ } := by
            rw [serve, Process.step_answered (Bool.eq_false_iff.mpr hexited) hanswered,
              handed_of_sent (sentIn x) hexecutor rfl]
          rw [hstep]
          exact ⟨howned, simulates_reply h hanswered hexecutor hevent⟩
      | _ =>
          rw [hexecutor] at hcall
          cases hcall

/-- A step beside the tasks is none of the network. -/
theorem tracks_beside (h : Owned env.config s.process s.pool s.included) {a : Process.Action}
    (htask : ∀ b, a ≠ .task b) (hreply : ∀ t x, a ≠ .reply t x) (hmine : ∀ tx, a ≠ .mine tx) :
    Tracks env s (s.serve env a) := by
  obtain ⟨hrelay, hcalls, hbroadcast, hcount⟩ :=
    frame_beside env.network.feeType env.config s.process htask hreply hmine
  rw [serve_of_quiet hbroadcast]
  refine ⟨h.mono hrelay hcalls hbroadcast hcount (fun _ hb => hb) (fun _ hb => .inl hb)
    (fun _ hb => hb), .none ?_⟩
  simp only [toNetwork, hrelay]

theorem tracks_service (h : Owned env.config s.process s.pool s.included) {a : Process.Action}
    (hpermits : permits a = true) (htruth : Truthful s (.service a)) :
    Tracks env s (s.serve env a) := by
  cases a with
  | task b =>
      refine tracks_task h ?_ fun hreturn => ?_
      · rintro rfl
        cases hpermits
      · cases b with
        | event event => cases hpermits
        | poll => cases hpermits
        | propagated r => cases hreturn
        | _ => rfl
  | reply t x => exact tracks_reply h htruth.trueOf
  | mine tx => cases hpermits
  | _ => exact tracks_beside h (by simp) (by simp) (by simp)

/-- An inclusion: the count is that of the next nonce after it. -/
theorem tracks_mine (h : Owned env.config s.process s.pool s.included) {i : Nat} {b : Broadcast}
    (hb : s.pool[i]? = some b) (hnonce : b.tx.nonce.toNat = s.process.submitters.count) :
    Tracks env s ((s.takeUp env i b).callPropagateRoot env b) := by
  have hmem : b ∈ s.pool := List.mem_of_getElem? hb
  have hstep : s.process.step env.network.feeType env.config (.mine b.tx) = { s.process with
      submitters := { s.process.submitters with
        count := s.process.submitters.count + 1
        included := b.tx :: s.process.submitters.included } } := by
    rw [Process.step, Submitters.step, if_pos ⟨h.inBroadcast b hmem, hnonce⟩]
  constructor
  · simp only [callPropagateRoot, takeUp, hstep]
    refine h.mono rfl rfl rfl (Nat.le_succ _) ?_ ?_ ?_
    · exact fun b' hb' => List.mem_of_mem_eraseIdx hb'
    · intro b' hb'
      rcases List.mem_append.mp hb' with hold | hnew
      · exact .inl hold
      · obtain rfl := List.mem_singleton.mp hnew
        exact .inr ⟨hmem, Nat.lt_succ_of_le (Nat.le_of_eq hnonce)⟩
    · exact fun b' hb' => List.mem_append_left _ hb'
  · refine .one (b := .mine i) trivial ?_
    have hsubmission : s.toNetwork.pool[i]? = some b.submission := by
      simp [toNetwork, hb]
    have hwallet : b.tx.fromAddress = env.network.wallet := (h.ours b (.inl hmem)).1
    have hnet : s.toNetwork.step env.network (.mine i)
        = s.toNetwork.callPropagateRoot env.network i b.submission := by
      simp only [Network.step, hsubmission]
    rw [hnet]
    simp only [Network.callPropagateRoot, toNetwork, callPropagateRoot, takeUp, hstep, hwallet,
      List.map_append, List.eraseIdx_map]
    rfl

theorem tracks_step (h : Owned env.config s.process s.pool s.included) {a : Action}
    (htruth : Truthful s a) : Tracks env s (s.step env a) := by
  cases a with
  | change postRoot => exact ⟨h, .one (b := .change postRoot) trivial rfl⟩
  | miss => exact ⟨h, .one (b := .miss) trivial rfl⟩
  | deliver i timestamp => exact ⟨h, .one (b := .deliver i timestamp) htruth rfl⟩
  | log =>
      simp only [step]
      split
      · rename_i hunseen hlistener hlive
        exact tracks_log h hunseen hlistener hlive
      · exact ⟨h, .none rfl⟩
  | service a =>
      simp only [step]
      split
      · rename_i hpermits
        exact tracks_service h hpermits htruth
      · exact ⟨h, .none rfl⟩
  | mine i =>
      simp only [step]
      split
      · rename_i b hb
        split
        · rename_i hnonce
          obtain ⟨-, hasks⟩ := h.ours b (.inl (List.mem_of_getElem? hb))
          rw [if_pos ⟨hasks.toAddress, hasks.data⟩]
          exact tracks_mine h hb hnonce
        · exact ⟨h, .none rfl⟩
      · exact ⟨h, .none rfl⟩

/-! ## Runs -/

theorem Start.owned {c₀ : L2.Chain} (h : Start env c₀ s) :
    Owned env.config s.process s.pool s.included := by
  obtain ⟨now, count, hprocess⟩ := h.process
  obtain ⟨-, hpool, hincluded, -, -⟩ := h.network.fresh
  have hnone : ∀ b, ¬ (b ∈ s.pool ∨ b ∈ s.included) := by
    intro b hb
    rw [List.map_eq_nil_iff.mp hpool, List.map_eq_nil_iff.mp hincluded] at hb
    rcases hb with hb | hb <;> cases hb
  rw [hprocess]
  refine ⟨Process.inStep_start now count, rfl, ?_, ?_, ?_, ?_, ?_⟩
  · exact fun b hb => absurd (.inl hb) (hnone b)
  · exact fun b hb => absurd hb (hnone b)
  · exact fun b hb => absurd (.inr hb) (hnone b)
  · exact fun _ b hb => absurd hb (hnone b)
  · intro event value prog hexecutor
    cases hexecutor

/-- The process takes one step of its own, or none. -/
theorem process_step (env : Setting) (s : Deployment) (a : Action) :
    (s.step env a).process = s.process
      ∨ ∃ b, (s.step env a).process = s.process.step env.network.feeType env.config b := by
  cases a with
  | change postRoot => exact .inl rfl
  | miss => exact .inl rfl
  | deliver i timestamp => exact .inl rfl
  | log =>
      simp only [step]
      split
      · rename_i event unseen hunseen _ _
        exact .inr ⟨.task (.event event), rfl⟩
      · exact .inl rfl
  | service a =>
      simp only [step]
      split
      · exact .inr ⟨a, rfl⟩
      · exact .inl rfl
  | mine i =>
      simp only [step]
      split
      · rename_i b _
        split
        · split <;> exact .inr ⟨.mine b.tx, rfl⟩
        · exact .inl rfl
      · exact .inl rfl

/-- The network's view of a run. -/
theorem network_run {c₀ : L2.Chain} {s₀ : Deployment} (hstart : Start env c₀ s₀)
    {as : List Action} (htruth : Along (step env) Truthful s₀ as) :
    ∃ bs, (∀ b ∈ bs, Network.PositiveTime b)
      ∧ (run (step env) s₀ as).toNetwork = run (Network.step env.network) s₀.toNetwork bs :=
  run_simulates (Network.step env.network)
    (I := fun s : Deployment => Owned env.config s.process s.pool s.included)
    (fun _ _ h hP => tracks_step h hP) hstart.owned htruth

/-- The process's view of a run. -/
theorem process_run (s₀ : Deployment) (as : List Action) :
    ∃ ps, (run (step env) s₀ as).process
      = run (Process.step env.network.feeType env.config) s₀.process ps := by
  have hstep : ∀ s a, True → True → True ∧ ∃ ps : List Process.Action, (∀ b ∈ ps, True)
      ∧ (step env s a).process
        = run (Process.step env.network.feeType env.config) s.process ps := by
    intro s a _ _
    rcases process_step env s a with hsame | ⟨b, hnext⟩
    · exact ⟨trivial, [], fun _ _ => trivial, hsame⟩
    · exact ⟨trivial, [b], fun _ _ => trivial, hnext⟩
  obtain ⟨ps, -, hrun⟩ := run_simulates (Process.step env.network.feeType env.config)
    (f := Deployment.process) (I := fun _ => True) (P := fun _ _ => True) hstep trivial
    (along_true (step env) s₀ as)
  exact ⟨ps, hrun⟩

/-- **The service between the two chains**: in every run of the process, the
wallet and both chains, with every request of every propagation, the process goes
through a run of its own, and the network through one in which a propagation is
one step that succeeds only with a transaction for its event included. So the
messages carry the root of their event or of a later one. -/
theorem deployment_refines {env : Setting} {c₀ : L2.Chain} {s₀ : Deployment}
    (hstart : Start env c₀ s₀) (as : List Action) (htruth : Along (step env) Truthful s₀ as) :
    let s := run (step env) s₀ as
    (∃ ps, s.process = run (Process.step env.network.feeType env.config) s₀.process ps)
      ∧ (∃ bs, (∀ b ∈ bs, Network.PositiveTime b)
        ∧ s.toNetwork = run (Network.step env.network) s₀.toNetwork bs)
      ∧ List.Forall₂ (Network.Carries env.network.accounts s.changes) s.chains.channel.sent
        s.sentFor := by
  intro s
  obtain ⟨bs, htime, hrun⟩ := network_run hstart htruth
  refine ⟨process_run s₀ as, ⟨bs, htime, hrun⟩, ?_⟩
  have hcarried := (Network.run_invariants hstart.network htime).1
  rw [← hrun] at hcarried
  exact hcarried.sent

/-! ### A run -/

def sampleSetting : Setting := ⟨Network.sampleSetting, 1, 0⟩

/-- The chains of `Network.sampleStart`, and a process just started. -/
def sampleStart : Deployment where
  process := .start 0 0
  chains := System.sampleDeployed
  unseen := []
  pool := []
  included := []
  changes := []
  sentFor := []

theorem start_sample : Start sampleSetting L2.Chain.sample sampleStart :=
  ⟨⟨0, 0, rfl⟩, Network.start_sample⟩

/-- The transaction with the default fee, at a price for the gas. -/
def feeTx (maxFeePerGas maxPriorityFeePerGas : U256) (gas : Option U256) : Eip1559Transaction :=
  { sampleTx 0 gas with value := feeToU256 defaultFee, maxFeePerGas, maxPriorityFeePerGas }

/-- An attempt up to the answer to its broadcast. -/
def attempt (maxFeePerGas maxPriorityFeePerGas : U256) (answer : Except MiddlewareError Unit) :
    List (Exchange Request Response) :=
  let filled := feeTx maxFeePerGas maxPriorityFeePerGas (some 90000)
  [⟨.estimateEip1559Fees, .ok (maxFeePerGas, maxPriorityFeePerGas)⟩,
    ⟨.getTransactionCount 9, .ok 0⟩,
    ⟨.fillTransaction (feeTx maxFeePerGas maxPriorityFeePerGas none), .ok (some 60000)⟩,
    ⟨.call filled, .ok ()⟩, ⟨.signTransaction filled, .ok ()⟩, ⟨.sendRawTransaction filled, answer⟩]

def toExecutor (x : Exchange Request Response) : Action := .service (.reply .executor x)

/-- The answer to the first broadcast is lost, so that the executor broadcasts
once more under the same nonce, at a higher price; another root is set before
the inclusion of the second transaction. -/
def retried : List Action :=
  [.change 6, .log, .service (.task .recv)] ++ (attempt 2 1 lostAnswer).map toExecutor
    ++ [toExecutor ⟨.sleep 1, ()⟩] ++ (attempt 4 2 (.ok ())).map toExecutor
    ++ [.change 7, .mine 1]

def sampleReceipt : Action :=
  toExecutor ⟨.awaitReceipt (feeTx 4 2 (some 90000)) 0, .ok (some ⟨some 1, some 50000⟩)⟩

theorem truthful_sample : Along (step sampleSetting) Truthful sampleStart
    (retried ++ [sampleReceipt, .deliver 0 100]) := by
  have hincluded : (run (step sampleSetting) sampleStart retried).included
      = [⟨⟨6⟩, feeTx 4 2 (some 90000)⟩] := rfl
  have hdeliver : 0 < (100 : U64).toNat := by decide
  refine (along_append _).mpr ⟨?_, ?_, hdeliver, trivial⟩
  · -- no receipt before the inclusion
    simp [retried, attempt, toExecutor, Truthful]
  · exact ⟨⟨⟨6⟩, feeTx 4 2 (some 90000)⟩, hincluded ▸ List.mem_singleton_self _, rfl⟩

theorem deployment_refines_sample :
    let s := run (step sampleSetting) sampleStart (retried ++ [sampleReceipt, .deliver 0 100])
    s.process.relay.succeeded = [6] ∧ s.process.submitters.broadcast.length = 2
      ∧ ∃ bs, s.toNetwork = run (Network.step Network.sampleSetting) Network.sampleStart bs := by
  obtain ⟨-, ⟨bs, -, hrun⟩, -⟩ := deployment_refines start_sample
    (retried ++ [sampleReceipt, .deliver 0 100]) truthful_sample
  exact ⟨rfl, rfl, bs, hrun⟩

end Deployment

end WorldIDBridge
