import WorldIDBridge.L2.StarkWorldID
import WorldIDBridge.Lib.Registry
import WorldIDBridge.Lib.TransitionRun

/-!
# The deployed contract and its abstract history

A `Chain` is the deployed contract together with what it has accepted and
emitted so far; `Chain.deliver` is one L1 message reaching it in a block of
a given timestamp. The abstract picture of a chain is a `Registry` of
roots, read off the accepted messages alone; `Abstracts` says that the
storage cells hold that register, and `deliver_abstracts` that every
message keeps it so.
-/

namespace WorldIDBridge.L2

open Checked StarkWorldID TransitionRun

/-- The deployed contract, the calls it accepted with their block
timestamps, and the events it emitted; both newest first. -/
structure Chain where
  storage : StarkWorldID.Storage
  accepted : List (U64 × HandlerCall)
  events : List StarkWorldID.Event

/-- An L1 message in a block. -/
structure Delivery where
  timestamp : U64
  message : L1HandlerMessage
  deriving DecidableEq, Repr

namespace Chain

def deploy (l1Address : EthAddress) (treeDepth : U8) : Except Panic Chain := do
  let (storage, events) ← construct l1Address treeDepth
  return ⟨storage, [], events⟩

/-- One message. A panic anywhere, in the wrapper or in the handler,
reverts the whole transaction. -/
def deliver (c : Chain) (d : Delivery) : Chain :=
  match d.message.decode with
  | .error _ => c
  | .ok call =>
      match call.exec c.storage d.message.fromAddress d.timestamp with
      | .error _ => c
      | .ok (storage, events) =>
          ⟨storage, (d.timestamp, call) :: c.accepted, events ++ c.events⟩

/-- The message decodes to `call` and the contract accepts it. -/
structure Accepts (c : Chain) (d : Delivery) (call : HandlerCall) : Prop where
  decode : d.message.decode = .ok call
  owner : c.storage.Obeys d.message.fromAddress
  guard : call.Guard c.storage

theorem deliver_of_accepts {c : Chain} {d : Delivery} {call : HandlerCall}
    (h : c.Accepts d call) :
    c.deliver d = ⟨call.effect c.storage d.timestamp, (d.timestamp, call) :: c.accepted,
      call.emits c.storage d.timestamp ++ c.events⟩ := by
  have hexec : call.exec c.storage d.message.fromAddress d.timestamp
      = .ok (call.effect c.storage d.timestamp, call.emits c.storage d.timestamp) :=
    HandlerCall.exec_eq_ok.mpr ⟨h.owner, h.guard, rfl⟩
  simp only [deliver, h.decode, hexec]

theorem deliver_of_rejects {c : Chain} {d : Delivery}
    (h : ∀ call, ¬ c.Accepts d call) : c.deliver d = c := by
  cases hdec : d.message.decode with
  | error e => simp only [deliver, hdec]
  | ok call =>
      cases hexec : call.exec c.storage d.message.fromAddress d.timestamp with
      | error e => simp only [deliver, hdec, hexec]
      | ok r =>
          obtain ⟨howner, hguard, -⟩ := HandlerCall.exec_eq_ok.mp hexec
          exact absurd ⟨hdec, howner, hguard⟩ (h call)

/-- What one message can do: nothing, or the effect of the call it carries. -/
theorem deliver_cases (c : Chain) (d : Delivery) :
    (c.deliver d = c ∧ ∀ call, ¬ c.Accepts d call)
      ∨ ∃ call, c.Accepts d call
          ∧ c.deliver d = ⟨call.effect c.storage d.timestamp,
              (d.timestamp, call) :: c.accepted,
              call.emits c.storage d.timestamp ++ c.events⟩ := by
  by_cases h : ∃ call, c.Accepts d call
  · obtain ⟨call, hacc⟩ := h
    exact .inr ⟨call, hacc, deliver_of_accepts hacc⟩
  · have hrej : ∀ call, ¬ c.Accepts d call := fun call hacc => h ⟨call, hacc⟩
    exact .inl ⟨deliver_of_rejects hrej, hrej⟩

theorem deploy_eq_ok {l1Address : EthAddress} {treeDepth : U8} {c : Chain} :
    deploy l1Address treeDepth = .ok c
      ↔ validate treeDepth = true
        ∧ c = ⟨⟨⟨l1Address⟩, ⟨treeDepth, WorldID.oneWeek, 0, fun _ => 0⟩⟩, [],
            [.crossDomainOwnableEvent ⟨0, l1Address⟩]⟩ := by
  simp only [deploy, bind_eq_ok, construct_eq_ok]
  constructor
  · rintro ⟨r, ⟨hv, rfl⟩, hc⟩
    exact ⟨hv, (Except.ok.inj hc).symm⟩
  · rintro ⟨hv, rfl⟩
    exact ⟨_, ⟨hv, rfl⟩, rfl⟩

/-! ## Reading the accepted messages -/

/-- The roots of the accepted `receive_root` messages with their times,
newest first. -/
def receivedRoots (log : List (U64 × HandlerCall)) : List (U256 × Nat) :=
  log.filterMap fun
    | (t, .receiveRoot r) => some (r, t.toNat)
    | _ => none

/-- The root of the most recently accepted `receive_root` message. -/
def lastReceived (c : Chain) : Option U256 :=
  (receivedRoots c.accepted).head?.map Prod.fst

/-- The expiry the last accepted `set_root_history_expiry` message set, or
the constructor's. -/
def currentExpiry : List (U64 × HandlerCall) → Nat
  | [] => WorldID.oneWeek.val
  | (_, .setRootHistoryExpiry e) :: _ => e.val
  | _ :: log => currentExpiry log

theorem mem_receivedRoots {log : List (U64 × HandlerCall)} {r : U256} {n : Nat} :
    (r, n) ∈ receivedRoots log ↔ ∃ t, (t, .receiveRoot r) ∈ log ∧ t.toNat = n := by
  simp only [receivedRoots, List.mem_filterMap]
  constructor
  · rintro ⟨⟨t, call⟩, hmem, hcall⟩
    cases call with
    | receiveRoot r' =>
        simp only [Option.some.injEq, Prod.mk.injEq] at hcall
        obtain ⟨rfl, rfl⟩ := hcall
        exact ⟨t, hmem, rfl⟩
    | setRootHistoryExpiry e => simp at hcall
    | changeL1StateBridgeAddress a => simp at hcall
  · rintro ⟨t, hmem, rfl⟩
    exact ⟨_, hmem, rfl⟩

/-- Nothing is accepted that was not delivered, at the time it was. -/
theorem accepted_run {c : Chain} {ds : List Delivery} {e : U64 × HandlerCall}
    (h : e ∈ (run deliver c ds).accepted) :
    e ∈ c.accepted ∨ ∃ d ∈ ds, d.timestamp = e.1 ∧ d.message.decode = .ok e.2 := by
  induction ds generalizing c with
  | nil => exact .inl h
  | cons d ds ih =>
      rcases ih h with h | ⟨d', hd', he⟩
      · rcases deliver_cases c d with ⟨hd, -⟩ | ⟨call, hacc, hd⟩
        · rw [hd] at h
          exact .inl h
        · rw [hd] at h
          rcases List.mem_cons.mp h with rfl | h
          · exact .inr ⟨d, by simp, rfl, hacc.decode⟩
          · exact .inl h
      · exact .inr ⟨d', by simp [hd'], he⟩

/-! ## The abstract history -/

/-- The storage cells hold the register `g`, which is what the accepted
messages spell out. -/
structure Abstracts (c : Chain) (g : Registry U256) : Prop where
  entries : g.entries = receivedRoots c.accepted
  window : g.window = currentExpiry c.accepted
  expiry : c.storage.worldID.rootHistoryExpiry.val = g.window
  history : ∀ r, (c.storage.worldID.rootHistory r).toNat = (g.timeOf? r).getD 0
  latest : c.storage.worldID.latestRoot = g.latest?.getD 0
  positive : ∀ e ∈ g.entries, 0 < e.2

namespace Abstracts

variable {c : Chain} {g : Registry U256}

/-- A root has a timestamp exactly when it was received. -/
theorem history_eq_zero (h : Abstracts c g) {r : U256} :
    c.storage.worldID.rootHistory r = 0 ↔ r ∉ g.keys := by
  rw [← Registry.timeOf?_eq_none, BitVec.toNat_eq, h.history r]
  cases ht : g.timeOf? r with
  | none => simp
  | some t =>
      have hpos := h.positive (r, t) (Registry.timeOf?_eq_some.mp ht)
      simp only [Option.getD_some, reduceCtorEq, iff_false]
      exact Nat.ne_of_gt hpos

theorem history_eq_zero_iff_never (h : Abstracts c g) {r : U256} :
    c.storage.worldID.rootHistory r = 0 ↔ ∀ t, (t, .receiveRoot r) ∉ c.accepted := by
  rw [h.history_eq_zero, ← Registry.timeOf?_eq_none, Option.eq_none_iff_forall_ne_some]
  simp only [ne_eq, Registry.timeOf?_eq_some, h.entries, mem_receivedRoots, not_exists,
    not_and]
  exact ⟨fun h t ht => h _ t ht rfl, fun h _ t ht _ => h t ht⟩

/-- An accepted root, in storage and in the register. -/
theorem receiveRoot (h : Abstracts c g) {r : U256} {t : U64} (ht : 0 < t.toNat)
    (hfresh : c.storage.worldID.rootHistory r = 0) (events : List StarkWorldID.Event) :
    Abstracts ⟨(HandlerCall.receiveRoot r).effect c.storage t,
        (t, .receiveRoot r) :: c.accepted, events⟩
      (g.enter r t.toNat (h.history_eq_zero.mp hfresh)) where
  entries := by simp [receivedRoots, h.entries]
  window := by simp [currentExpiry, h.window]
  expiry := h.expiry
  history := fun r' => by
    have hw : (t.setWidth 128).toNat = t.toNat :=
      BitVec.toNat_setWidth_of_le (by omega)
    simp only [HandlerCall.effect, Registry.timeOf?_enter]
    by_cases hr : r = r'
    · subst hr
      rw [Function.update_self, if_pos rfl, hw, Option.getD_some]
    · rw [Function.update_of_ne (fun e => hr e.symm), if_neg hr, h.history r']
  latest := rfl
  positive := fun e he => by
    rcases List.mem_cons.mp he with rfl | he
    · exact ht
    · exact h.positive e he

/-- A new expiry, in storage and in the register. -/
theorem setExpiry (h : Abstracts c g) (x : Felt252) (t : U64)
    (events : List StarkWorldID.Event) :
    Abstracts ⟨(HandlerCall.setRootHistoryExpiry x).effect c.storage t,
      (t, .setRootHistoryExpiry x) :: c.accepted, events⟩ (g.setWindow x.val) where
  entries := h.entries
  window := rfl
  expiry := rfl
  history := h.history
  latest := h.latest
  positive := h.positive

/-- A hand-over does not touch the history. -/
theorem changeOwner (h : Abstracts c g) (a : EthAddress) (t : U64)
    (events : List StarkWorldID.Event) :
    Abstracts ⟨(HandlerCall.changeL1StateBridgeAddress a).effect c.storage t,
      (t, .changeL1StateBridgeAddress a) :: c.accepted, events⟩ g where
  entries := h.entries
  window := h.window
  expiry := h.expiry
  history := h.history
  latest := h.latest
  positive := h.positive

end Abstracts

/-- **One message of the contract is one step of the register, or none**:
a rejected message leaves it, an accepted root is admitted, an accepted
expiry replaces the window, a hand-over leaves it. -/
theorem deliver_abstracts {c : Chain} {g : Registry U256} (h : Abstracts c g)
    {d : Delivery} (hd : 0 < d.timestamp.toNat) :
    ∃ g', Abstracts (c.deliver d) g' ∧ g.Extends g' := by
  rcases deliver_cases c d with ⟨hsame, -⟩ | ⟨call, hacc, hnext⟩
  · rw [hsame]
    exact ⟨g, h, .refl g⟩
  · -- an accepted message: its handler's guard is what the register asks for
    rw [hnext]
    cases call with
    | receiveRoot r =>
        exact ⟨_, h.receiveRoot hd hacc.guard _, List.suffix_cons _ _⟩
    | setRootHistoryExpiry x => exact ⟨_, h.setExpiry x d.timestamp _, .refl g⟩
    | changeL1StateBridgeAddress a =>
        exact ⟨_, h.changeOwner a d.timestamp _, .refl g⟩

theorem deploy_abstracts {l1Address : EthAddress} {treeDepth : U8} {c : Chain}
    (h : deploy l1Address treeDepth = .ok c) :
    Abstracts c (Registry.empty WorldID.oneWeek.val) := by
  obtain ⟨-, rfl⟩ := deploy_eq_ok.mp h
  exact ⟨rfl, rfl, rfl, fun _ => rfl, rfl, by simp⟩

/-- The history of a chain only grows, over any messages in blocks with
positive timestamps. -/
theorem run_abstracts {c : Chain} {g : Registry U256} (h : Abstracts c g)
    {ds : List Delivery} (hds : ∀ d ∈ ds, 0 < d.timestamp.toNat) :
    ∃ g', Abstracts (run deliver c ds) g' ∧ g.Extends g' := by
  refine run_invariant deliver (I := fun c' => ∃ g', Abstracts c' g' ∧ g.Extends g')
    (P := fun _ d => 0 < d.timestamp.toNat) ?_ ⟨g, h, .refl g⟩
    (along_of_forall deliver hds)
  rintro c' d ⟨g', h', hext⟩ hd
  obtain ⟨g'', h'', hext'⟩ := deliver_abstracts h' hd
  exact ⟨g'', h'', hext.trans hext'⟩

end Chain

end WorldIDBridge.L2
