import WorldIDBridge.Service.MessageFee
import WorldIDBridge.System.Deployment

/-!
# What a success is worth

The relayer does not look at the status of a receipt: once its transaction is
included a propagation has succeeded, whatever the bridge made of it. Here the
bridge has the fee limit of its constructor. It then takes every value the
relayer attaches but zero, and the module says what has become of a root the
relayer counts as propagated.
-/

namespace WorldIDBridge

open Service TransitionRun L1

namespace Network

variable {env : Setting} {s : Network}

/-! ## The bridge and a fee -/

/-- The value of a fee, for some estimate. -/
def IsFee (feeType : Fee) (value : U256) : Prop := Priced feeType (fun _ => True) value

/-- The bridge takes a fee unless it is zero. -/
theorem IsFee.inWindow_iff {feeType : Fee} {value : U256} (h : IsFee feeType value) :
    InWindow value ↔ value ≠ 0 := by
  obtain ⟨overallFee, -, rfl⟩ := h
  rw [Service.inWindow_iff, ← feeWei_eq_zero, ← feeToU256_attachedFee, ne_eq, BitVec.toNat_eq]
  rfl

/-- **An inclusion sends one message**, and none for a fee of zero. -/
theorem sentFor_callPropagateRoot (h : Carried env s)
    (hlimit : s.chains.bridge.feeLimitPropagateRoot = StarkStateBridge.defaultStarkFeeLimit)
    {i : Nat} {tx : Submission} (htx : s.pool[i]? = some tx) (hfee : IsFee env.feeType tx.value) :
    (s.callPropagateRoot env i tx).sentFor
      = s.sentFor ++ if tx.value ≠ 0 then [(tx.event, s.changes.length)] else [] := by
  have hevent : tx.event ∈ s.changes :=
    h.emitted tx.event (.inr (.inr (List.mem_map_of_mem (List.mem_of_getElem? htx))))
  obtain ⟨last, hlast⟩ : ∃ last, s.changes.getLast? = some last :=
    Option.isSome_iff_exists.mp (by simp [List.ne_nil_of_mem hevent])
  have hroot := h.latest last hlast
  -- the manager answers, so that only the value decides
  have htakes : StarkStateBridge.Succeeds s.chains.bridge env.accounts.bridge s.chains.world
      ⟨env.wallet, tx.value⟩ .propagateRoot ↔ tx.value ≠ 0 := by
    rw [← hfee.inWindow_iff]
    exact StarkStateBridge.succeeds_iff h.core (congrArg some hlimit)
      (by simp [StarkStateBridge.Permitted, hroot])
  cases hexec : StarkStateBridge.exec s.chains.bridge env.accounts.bridge s.chains.world
      ⟨env.wallet, tx.value⟩ .propagateRoot with
  | error e =>
      have hzero : ¬ tx.value ≠ 0 := by
        rw [← htakes]
        intro hok
        obtain ⟨o, ho⟩ := hok
        rw [hexec] at ho
        cases ho
      simp only [callPropagateRoot, hexec, List.map_nil, if_neg hzero]
  | ok o =>
      obtain ⟨log, hlogs, -⟩ := System.propagateRoot_log hexec h.core h.starkWorldID hroot
      rw [if_pos (htakes.mp ⟨o, hexec⟩)]
      simp only [callPropagateRoot, hexec, hlogs, List.map_cons, List.map_nil]

/-! ## The accounts of the relayer and the bridge -/

/-- The events of the transactions whose fee is not zero. -/
def paid (txs : List Submission) : List TreeChanged :=
  (txs.filter fun tx => tx.value ≠ 0).map Submission.event

theorem paid_snoc (txs : List Submission) (tx : Submission) :
    paid (txs ++ [tx]) = paid txs ++ if tx.value ≠ 0 then [tx.event] else [] := by
  simp only [paid, List.filter_append, List.map_append, List.filter_cons, List.filter_nil,
    decide_eq_true_eq]
  split <;> rfl

/-- **The invariant**: whatever is attached is a fee, the messages are those of
the transactions included and paid for, and what counts as propagated has a
transaction that was included. -/
structure Settled (env : Setting) (s : Network) : Prop where
  resting : s.relay.poller = .waiting
  limit : s.chains.bridge.feeLimitPropagateRoot = StarkStateBridge.defaultStarkFeeLimit
  estimates : EstimatesOnly env.feeType s.relay
  hand : ∀ event value, s.relay.path.executor = .propagating event value →
    IsFee env.feeType value
  fee : ∀ tx, tx ∈ s.pool ∨ tx ∈ s.included → IsFee env.feeType tx.value
  sent : s.sentFor.map Prod.fst = paid s.included
  succeeded : ∀ root ∈ s.relay.succeeded, ∃ tx ∈ s.included, tx.event.postRoot = root

theorem Start.settled {c₀ : L2.Chain} (h : Start env c₀ s)
    (hlimit : s.chains.bridge.feeLimitPropagateRoot = StarkStateBridge.defaultStarkFeeLimit) :
    Settled env s := by
  obtain ⟨now, hrelay⟩ := h.relay
  obtain ⟨-, hpool, hincluded, -, hsentFor⟩ := h.fresh
  refine ⟨by rw [hrelay]; rfl, hlimit, ?_, ?_, ?_, ?_, ?_⟩
  · rw [hrelay]
    exact estimatesOnly_run env.feeType now []
  · intro event value hexecutor
    rw [hrelay] at hexecutor
    cases hexecutor
  · intro tx htx
    rw [hpool, hincluded] at htx
    rcases htx with htx | htx <;> cases htx
  · rw [hsentFor, hincluded]
    rfl
  · intro root hroot
    rw [hrelay] at hroot
    cases hroot

/-- While the poller rests a root is counted when the propagation in the
executor's hand succeeds. -/
theorem mem_succeeded_step (feeType : Fee) {s : Relay} (hresting : s.poller = .waiting)
    {a : Relay.Action} {root : U256} (h : root ∈ (s.step feeType a).succeeded) :
    root ∈ s.succeeded ∨ a = .propagated (.ok ())
      ∧ ∃ event ∈ s.path.executor.inHand, event.postRoot = root := by
  cases a with
  | event event =>
      refine .inl ?_
      simp only [Relay.step, Relay.receive] at h
      split at h
      · split at h <;> exact h
      · exact h
  | propagated outcome =>
      cases outcome with
      | error e => exact .inl h
      | ok _ =>
          rcases List.mem_append.mp h with hnew | hold
          · obtain ⟨event, hevent, hpost⟩ := List.mem_map.mp hnew
            refine .inr ⟨rfl, event, ?_, hpost⟩
            cases hexecutor : s.path.executor with
            | propagating event' value =>
                simpa [EventPath.finishes, hexecutor] using hevent
            | _ => simp [EventPath.finishes, hexecutor] at hevent
          · exact .inl hold
  | poll => exact .inl (by simpa [Relay.step, hresting] using h)
  | fetched l1Root response => exact .inl (by simpa [Relay.step, hresting] using h)
  | pollEstimated outcome => exact .inl (by simpa [Relay.step, hresting] using h)
  | pollPropagated outcome => exact .inl (by simpa [Relay.step, hresting] using h)
  | _ => exact .inl h

/-- A step of the relayer: what it comes to have in hand has a fee, and a success
was confirmed. -/
theorem Settled.relayStep (h : Settled env s) {a : Relay.Action}
    (hresting : (s.relay.step env.feeType a).poller = .waiting)
    (hconfirmed : a = .propagated (.ok ()) → s.confirmed = true) (unseen : List TreeChanged) :
    Settled env { s with relay := s.relay.step env.feeType a, unseen } := by
  refine ⟨hresting, h.limit, h.estimates.step a, ?_, h.fee, h.sent, ?_⟩
  · intro event value hexecutor
    have hmoves := relay_executor_moves s.relay a h.estimates
    rw [show (s.relay.step env.feeType a).path.executor = .propagating event value from hexecutor]
      at hmoves
    cases hmoves with
    | inl hsame => exact h.hand event value hsame.symm
    | inr hpriced =>
        obtain ⟨overallFee, -, hvalue⟩ := hpriced
        exact ⟨overallFee, fun _ => trivial, hvalue⟩
  · intro root hroot
    rcases mem_succeeded_step env.feeType h.resting hroot with hold | ⟨hok, event, hevent, hpost⟩
    · exact h.succeeded root hold
    · have hincluded := List.all_eq_true.mp (hconfirmed hok) event hevent
      obtain ⟨tx, htx, heq⟩ := List.any_eq_true.mp hincluded
      exact ⟨tx, htx, by rw [of_decide_eq_true heq, hpost]⟩

/-- The account of an inclusion. -/
theorem Settled.callPropagateRoot (h : Settled env s) (hcarried : Carried env s) {i : Nat}
    {tx : Submission} (htx : s.pool[i]? = some tx) :
    Settled env (s.callPropagateRoot env i tx) := by
  have hmem : tx ∈ s.pool := List.mem_of_getElem? htx
  have hbridge : (s.callPropagateRoot env i tx).chains.bridge = s.chains.bridge := by
    cases hexec : L1.StarkStateBridge.exec s.chains.bridge env.accounts.bridge s.chains.world
        ⟨env.wallet, tx.value⟩ .propagateRoot with
    | error e => simp only [Network.callPropagateRoot, System.step, hexec]
    | ok o =>
        simp only [Network.callPropagateRoot, System.step, hexec]
        exact (propagateRoot_frame hexec).1
  refine ⟨h.resting, hbridge ▸ h.limit, h.estimates, h.hand, ?_, ?_, ?_⟩
  · intro tx' htx'
    rcases htx' with hpool | hincluded
    · exact h.fee tx' (.inl (List.mem_of_mem_eraseIdx hpool))
    · rcases List.mem_append.mp hincluded with hold | hnew
      · exact h.fee tx' (.inr hold)
      · obtain rfl := List.mem_singleton.mp hnew
        exact h.fee tx' (.inl hmem)
  · rw [sentFor_callPropagateRoot hcarried h.limit htx (h.fee tx (.inl hmem)), List.map_append,
      h.sent]
    show _ = paid (s.included ++ [tx])
    rw [paid_snoc]
    split <;> rfl
  · intro root hroot
    obtain ⟨tx', htx', hpost⟩ := h.succeeded root hroot
    exact ⟨tx', List.mem_append_left _ htx', hpost⟩

theorem Settled.step (h : Settled env s) (hcarried : Carried env s) (a : Action) :
    Settled env (s.step env a) := by
  cases a with
  | change postRoot =>
      exact ⟨h.resting, h.limit, h.estimates, h.hand, h.fee, h.sent, h.succeeded⟩
  | log =>
      simp only [Network.step]
      split
      · rename_i event unseen _ _
        refine h.relayStep ?_ ?_ unseen
        · exact (Relay.frame_event env.feeType s.relay event).1.trans h.resting
        · intro hpropagated
          cases hpropagated
      · exact h
  | miss => exact ⟨h.resting, h.limit, h.estimates, h.hand, h.fee, h.sent, h.succeeded⟩
  | relay a =>
      simp only [Network.step]
      split
      · rename_i hpermits
        refine h.relayStep ?_ ?_ s.unseen
        · refine Deployment.poller_of_task env.feeType h.resting ?_
          rintro rfl
          cases hpermits
        · rintro rfl
          exact hpermits
      · exact h
  | broadcast =>
      simp only [Network.step]
      split
      · rename_i event value hexecutor
        refine ⟨h.resting, h.limit, h.estimates, h.hand, ?_, h.sent, h.succeeded⟩
        intro tx htx
        rcases htx with hpool | hincluded
        · rcases List.mem_append.mp hpool with hold | hnew
          · exact h.fee tx (.inl hold)
          · obtain rfl := List.mem_singleton.mp hnew
            exact h.hand event value hexecutor
        · exact h.fee tx (.inr hincluded)
      · exact h
  | mine i =>
      simp only [Network.step]
      split
      · rename_i tx htx
        exact h.callPropagateRoot hcarried htx
      · exact h
  | deliver i timestamp =>
      obtain ⟨hbridge, -, -⟩ := step_deliver s.chains env.accounts i timestamp
      refine ⟨h.resting, ?_, h.estimates, h.hand, h.fee, h.sent, h.succeeded⟩
      simp only [Network.step, hbridge, h.limit]

end Network

namespace Deployment

end Deployment

end WorldIDBridge
