import WorldIDBridge.L1.Configuration
import WorldIDBridge.L2.Validity
import WorldIDBridge.Lib.Replay

/-!
# What an indexer knows

The two contracts announce every write. Someone who has the events alone, in
order, has the whole storage: of StarkWorldID up to the tree depth, of the
bridge up to its owner and what the constructor was given. And the events of
StarkWorldID fit together: a hand-over names the owner before it, and no root
is added twice.
-/

namespace WorldIDBridge

open TransitionRun

/-! ## StarkWorldID -/

namespace L2.Chain

open StarkWorldID

/-- The root an event writes to the history, with its timestamp. -/
def rootWrite : StarkWorldID.Event → Option (U256 × U128)
  | .worldIDEvent (.rootAdded root timestamp) => some (root, timestamp)
  | _ => none

def latestWrite : StarkWorldID.Event → Option (Unit × U256)
  | .worldIDEvent (.rootAdded root _) => some ((), root)
  | _ => none

def expiryWrite : StarkWorldID.Event → Option (Unit × Felt252)
  | .worldIDEvent (.rootHistoryExpirySet newExpiry) => some ((), newExpiry)
  | _ => none

def ownerWrite : StarkWorldID.Event → Option (Unit × EthAddress)
  | .crossDomainOwnableEvent e => some ((), e.newL1Owner)
  | _ => none

/-- The owner the events name last. -/
def ownerOf (es : List StarkWorldID.Event) : EthAddress :=
  Replay.table ownerWrite (fun _ => 0) es ()

/-- The roots the events added, with their timestamps. -/
def historyOf : List StarkWorldID.Event → U256 → U128 := Replay.table rootWrite fun _ => 0

/-- The storage the events of a contract of that depth tell. -/
def storageOf (treeDepth : U8) (es : List StarkWorldID.Event) : StarkWorldID.Storage where
  crossDomainOwnable := ⟨ownerOf es⟩
  worldID :=
    { treeDepth := treeDepth
      rootHistoryExpiry := Replay.table expiryWrite (fun _ => WorldID.oneWeek) es ()
      latestRoot := Replay.table latestWrite (fun _ => 0) es ()
      rootHistory := historyOf es }

/-- What has to hold of an event after those before it. -/
def Fits (es : List StarkWorldID.Event) : StarkWorldID.Event → Prop
  | .worldIDEvent (.rootAdded root _) => historyOf es root = 0
  | .worldIDEvent (.rootHistoryExpirySet _) => True
  | .crossDomainOwnableEvent e => e.previousL1Owner = ownerOf es

def Coherent : List StarkWorldID.Event → Prop
  | [] => True
  | e :: es => Fits es e ∧ Coherent es

/-- The storage is what the events tell, and they fit together. -/
def Indexed (treeDepth : U8) (c : Chain) : Prop :=
  c.storage = storageOf treeDepth c.events ∧ Coherent c.events

theorem deploy_indexed {l1Address : EthAddress} {treeDepth : U8} {c : Chain}
    (h : Chain.deploy l1Address treeDepth = .ok c) : Indexed treeDepth c := by
  obtain ⟨-, rfl⟩ := deploy_eq_ok.mp h
  exact ⟨rfl, rfl, trivial⟩

/-- An accepted message: one event, which tells the one write. -/
theorem Indexed.deliver {treeDepth : U8} {c : Chain} (h : Indexed treeDepth c)
    (d : Delivery) : Indexed treeDepth (c.deliver d) := by
  rcases deliver_cases c d with ⟨hsame, -⟩ | ⟨call, hacc, hnext⟩
  · rw [hsame]
    exact h
  · obtain ⟨storage, accepted, events⟩ := c
    obtain ⟨hstorage, hcoherent⟩ := h
    simp only at hstorage
    subst hstorage
    rw [hnext]
    cases call with
    | receiveRoot root => exact ⟨rfl, hacc.guard, hcoherent⟩
    | setRootHistoryExpiry expiryTime => exact ⟨rfl, trivial, hcoherent⟩
    | changeL1StateBridgeAddress newOwner => exact ⟨rfl, rfl, hcoherent⟩

theorem indexed_run {l1Address : EthAddress} {treeDepth : U8} {c : Chain}
    (h : Chain.deploy l1Address treeDepth = .ok c) (ds : List Delivery) :
    Indexed treeDepth (run deliver c ds) :=
  run_invariant _ (P := fun _ _ => True) (fun _ d hc _ => hc.deliver d) (deploy_indexed h)
    (along_true _ _ _)

/-- **StarkWorldID can be followed from its events**: after any messages its
storage is the one its events tell, each hand-over event names the owner
before it, and each root was new when it was added. -/
theorem events_tell_storage {l1Address : EthAddress} {treeDepth : U8} {c₀ : Chain}
    (h : Chain.deploy l1Address treeDepth = .ok c₀) (ds : List Delivery) :
    let c := run deliver c₀ ds
    c.storage = storageOf treeDepth c.events
      ∧ ∀ newer e older, c.events = newer ++ e :: older → Fits older e := by
  obtain ⟨hstorage, hcoherent⟩ := indexed_run h ds
  refine ⟨hstorage, ?_⟩
  -- the older events of a coherent list are coherent
  have hsplit : ∀ newer e older, Coherent (newer ++ e :: older) → Fits older e := by
    intro newer e older hc
    induction newer with
    | nil => exact hc.1
    | cons e' newer ih => exact ih hc.2
  intro newer e older hevents
  rw [hevents] at hcoherent
  exact hsplit newer e older hcoherent

theorem events_tell_storage_sample :
    (run deliver sample sampleMessages).storage
      = storageOf 20 (run deliver sample sampleMessages).events :=
  (events_tell_storage deploy_sample sampleMessages).1

end L2.Chain

/-! ## The bridge -/

namespace L1.StarkStateBridge

/-- The cells of the bridge that are set one at a time. -/
inductive Cell where
  | starkWorldIDAddress
  | worldIDIdentityManager
  | starknetCoreContract
  | feeLimitPropagateRoot
  | feeLimitSetRootHistoryExpiry
  | feeLimitTransferOwnership
  deriving DecidableEq, Repr

/-- An address fills the low bits of a word. -/
def Storage.cell (self : Storage) : Cell → U256
  | .starkWorldIDAddress => self.starkWorldIDAddress
  | .worldIDIdentityManager => self.worldIDIdentityManager.setWidth 256
  | .starknetCoreContract => self.starknetCoreContract.setWidth 256
  | .feeLimitPropagateRoot => self.feeLimitPropagateRoot
  | .feeLimitSetRootHistoryExpiry => self.feeLimitSetRootHistoryExpiry
  | .feeLimitTransferOwnership => self.feeLimitTransferOwnership

/-- The cell an event says was set. -/
def cellWrite : Event → Option (Cell × U256)
  | .setStarkWorldIDAddress x => some (.starkWorldIDAddress, x)
  | .setWorldIDIdentityManager a => some (.worldIDIdentityManager, a.setWidth 256)
  | .setStarknetCoreContract a => some (.starknetCoreContract, a.setWidth 256)
  | .setFeeLimitPropagateRoot x => some (.feeLimitPropagateRoot, x)
  | .setFeeLimitSetRootHistoryExpiry x => some (.feeLimitSetRootHistoryExpiry, x)
  | .setFeeLimitTransferOwnership x => some (.feeLimitTransferOwnership, x)
  | _ => none

/-- The message an event announces: its selector and payload. -/
def announces : Event → Option (U256 × List U256)
  | .rootPropagated root => some (handleReceiveRootSelector, splitPayload root)
  | .setRootHistoryExpiry e => some (handleSetRootHistoryExpirySelector, splitPayload e)
  | .l1StateBridgeAddressOnL2Changed _ a =>
      some (handleChangeL1StateBridgeAddressSelector, [a.setWidth 256])
  | _ => none

/-- The bridge with its events and the messages it had logged for L2, newest
first. -/
structure Logged where
  bridge : Storage
  events : List Event
  logs : List LogMessageToL2

/-- A transaction, with what a call that succeeds emits and has logged. -/
def Logged.transact (this : EthAddress) (s : Logged) : Transaction → Logged
  | .call w msg call =>
      match exec s.bridge this w msg call with
      | .ok o => ⟨o.bridge, o.event :: s.events, o.logs ++ s.logs⟩
      | .error _ => s
  | .transferOwnership newOwner => { s with bridge := { s.bridge with owner := newOwner } }

variable {self : Storage} {this : EthAddress} {w : World} {msg : Msg} {call : BridgeCall}
  {o : Outcome}

theorem event_of_exec (h : exec self this w msg call = .ok o) :
    o.event = emits self this w call := by
  obtain ⟨-, heff⟩ := exec_eq_ok.mp h
  rw [Effect] at heff
  cases hreq : request self w call with
  | none =>
      rw [hreq] at heff
      rw [heff]
  | some r =>
      rw [hreq] at heff
      obtain ⟨w', logs, -, ho⟩ := send_eq_ok.mp heff
      rw [ho]

/-- The event of a call says which cell it set, and to what. -/
theorem cell_of_exec (h : exec self this w msg call = .ok o) :
    (∃ k v, cellWrite o.event = some (k, v) ∧ o.bridge.cell = Function.update self.cell k v)
      ∨ cellWrite o.event = none ∧ o.bridge.cell = self.cell := by
  have hevent := event_of_exec h
  have hbridge : o.bridge = configure self call := by
    rcases exec_cases h with ⟨-, hb, -⟩ | ⟨_, _, hreq, -, -, hb, -⟩
    · exact hb
    · rw [hb]
      cases call <;> first | rfl | cases hreq
  rw [hevent, hbridge]
  cases call with
  | propagateRoot => exact .inr ⟨rfl, rfl⟩
  | changeL1StateBridgeAddress a => exact .inr ⟨rfl, rfl⟩
  | setRootHistoryExpiry e => exact .inr ⟨rfl, rfl⟩
  | _ =>
      refine .inl ⟨_, _, rfl, ?_⟩
      funext k
      cases k <;> rfl

/-- The event of a call says what message it asked for. -/
theorem announces_of_exec (h : exec self this w msg call = .ok o) :
    announces o.event = request self w call := by
  obtain ⟨hguard, -⟩ := exec_eq_ok.mp h
  rw [event_of_exec h]
  cases call with
  | propagateRoot =>
      obtain ⟨root, hroot⟩ := Option.isSome_iff_exists.mp hguard.2
      rw [request, emits, hroot]
      rfl
  | _ => rfl

/-- **The configuration can be followed from the events**: after any
transactions the cells are the constructor's with the writes of the events
replayed. -/
theorem events_tell_cells (this : EthAddress) (start : Storage) (ts : List Transaction) :
    let s := run (Logged.transact this) ⟨start, [], []⟩ ts
    s.bridge.cell = Replay.table cellWrite start.cell s.events := by
  refine run_invariant (Logged.transact this) (P := fun _ _ => True)
    (I := fun s : Logged => s.bridge.cell = Replay.table cellWrite start.cell s.events)
    (fun s t h _ => ?_) rfl (along_true _ _ ts)
  cases t with
  | transferOwnership newOwner =>
      have hcell : ({ s.bridge with owner := newOwner } : Storage).cell = s.bridge.cell := by
        funext k
        cases k <;> rfl
      exact hcell.trans h
  | call w msg call =>
      rw [Logged.transact]
      cases hexec : exec s.bridge this w msg call with
      | error e => exact h
      | ok o =>
          show o.bridge.cell = Replay.table cellWrite start.cell (o.event :: s.events)
          rcases cell_of_exec hexec with ⟨k, v, hwrite, hcell⟩ | ⟨hwrite, hcell⟩
          · rw [Replay.table_cons_some hwrite, ← h, hcell]
          · rw [Replay.table_cons_none hwrite, ← h, hcell]

/-! ### Announced messages -/

/-- The messages logged, newest first: selector and payload. -/
def Logged.messages (s : Logged) : List (U256 × List U256) :=
  s.logs.map fun log => (log.selector, log.payload)

/-- The messages announced, newest first. -/
def Logged.announced (s : Logged) : List (U256 × List U256) := s.events.filterMap announces

/-- If the call goes through and asks for a message, it asks the core. -/
def AsksCore (this : EthAddress) (s : Logged) : Transaction → Prop
  | .call w msg call =>
      ∀ o, exec s.bridge this w msg call = .ok o → request s.bridge w call ≠ none →
        s.bridge.starknetCoreContract = w.coreAddress
  | .transferOwnership _ => True

/-- What a transaction adds to the two lists: nothing, the same message, or an
announcement alone, when another contract than the core was asked. -/
theorem transact_lists (s : Logged) (t : Transaction) :
    ((s.transact this t).messages = s.messages ∧ (s.transact this t).announced = s.announced
        ∧ AsksCore this s t)
      ∨ (∃ m, (s.transact this t).messages = m :: s.messages
          ∧ (s.transact this t).announced = m :: s.announced ∧ AsksCore this s t)
      ∨ ∃ m, (s.transact this t).messages = s.messages
          ∧ (s.transact this t).announced = m :: s.announced ∧ ¬ AsksCore this s t := by
  cases t with
  | transferOwnership newOwner => exact .inl ⟨rfl, rfl, trivial⟩
  | call w msg call =>
      rw [Logged.transact]
      cases hexec : exec s.bridge this w msg call with
      | error e =>
          refine .inl ⟨rfl, rfl, fun o ho => ?_⟩
          rw [hexec] at ho
          cases ho
      | ok o =>
          have hannounces := announces_of_exec hexec
          have hone : ∀ o', exec s.bridge this w msg call = .ok o' → o' = o := by
            intro o' ho'
            rw [hexec] at ho'
            exact (Except.ok.inj ho').symm
          rcases exec_cases hexec with ⟨hnone | hcore, -, -, hlogs⟩ | ⟨sel, payload, hreq, hcore, -, -, -, hlogs⟩
          · rw [hnone] at hannounces
            refine .inl ⟨?_, ?_, fun _ _ hreq => absurd hnone hreq⟩
            · simp only [Logged.messages, hlogs, List.nil_append]
            · simp only [Logged.announced, List.filterMap_cons_none hannounces]
          · cases hreq : request s.bridge w call with
            | none =>
                rw [hreq] at hannounces
                refine .inl ⟨?_, ?_, fun _ _ hne => absurd hreq hne⟩
                · simp only [Logged.messages, hlogs, List.nil_append]
                · simp only [Logged.announced, List.filterMap_cons_none hannounces]
            | some m =>
                rw [hreq] at hannounces
                refine .inr (.inr ⟨m, ?_, ?_, fun hasks => ?_⟩)
                · simp only [Logged.messages, hlogs, List.nil_append]
                · simp only [Logged.announced, List.filterMap_cons_some hannounces]
                · exact hcore (hasks o hexec (by rw [hreq]; simp))
          · rw [hreq] at hannounces
            refine .inr (.inl ⟨(sel, payload), ?_, ?_, fun _ _ _ => hcore⟩)
            · simp only [Logged.messages, hlogs, List.cons_append, List.nil_append,
                List.map_cons]
              rfl
            · simp only [Logged.announced, List.filterMap_cons_some hannounces]

/-- **When the events announce the messages**: the events of a run announce
exactly the messages logged for L2, in order, if and only if each message
asked for was asked of the core. A bridge configured with another contract
announces a message nobody reads. -/
theorem events_announce_messages_iff (this : EthAddress) (start : Storage)
    (ts : List Transaction) :
    let s := run (Logged.transact this) ⟨start, [], []⟩ ts
    s.messages = s.announced
      ↔ Along (Logged.transact this) (AsksCore this) ⟨start, [], []⟩ ts := by
  refine run_iff_along (Logged.transact this) (I := fun s : Logged => s.messages = s.announced)
    (D := fun s : Logged => s.messages.length < s.announced.length) ?_ ?_ ?_ ?_ rfl
  · intro s t h hasks
    rcases transact_lists s t with ⟨hm, ha, -⟩ | ⟨m, hm, ha, -⟩ | ⟨m, -, -, hnot⟩
    · rw [hm, ha, h]
    · rw [hm, ha, h]
    · exact absurd hasks hnot
  · intro s t h hnot
    rcases transact_lists s t with ⟨-, -, hasks⟩ | ⟨m, -, -, hasks⟩ | ⟨m, hm, ha, -⟩
    · exact absurd hasks hnot
    · exact absurd hasks hnot
    · rw [hm, ha, h, List.length_cons]
      omega
  · intro s t h
    rcases transact_lists s t with ⟨hm, ha, -⟩ | ⟨m, hm, ha, -⟩ | ⟨m, hm, ha, -⟩
    · rw [hm, ha]
      exact h
    · rw [hm, ha, List.length_cons, List.length_cons]
      omega
    · rw [hm, ha, List.length_cons]
      omega
  · intro s hlt heq
    rw [heq] at hlt
    exact Nat.lt_irrefl _ hlt

end L1.StarkStateBridge

end WorldIDBridge
