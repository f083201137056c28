import WorldIDBridge.L1.Configuration
import WorldIDBridge.Service.Relay

/-!
# The value a propagation attaches

Executor and poller compute the fee of a propagation on their own, each with
the same three cases. This module shows that both attach the same value, that
nothing is lost between the felt and the word, and when the bridge and the
messaging contract of this repository take it: they have their own bounds.
-/

namespace WorldIDBridge.Service

open TransitionRun L1

/-! ## The value of a fee -/

/-- The fee in wei: a constant, or the estimate up to the cap. -/
def feeWei (overallFee : Felt252) : Fee → Nat
  | .default => 10 ^ 9
  | .estimate => min overallFee.val (10 ^ 13)
  | .noFee => 0

/-- The felt both tasks compute. -/
def attachedFee (overallFee : Felt252) : Fee → Felt252
  | .default => defaultFee
  | .estimate => capEstimatedFee overallFee
  | .noFee => noFee

theorem capEstimatedFee_val (fee : Felt252) : (capEstimatedFee fee).val = min fee.val (10 ^ 13) := by
  have hcap : maxEstimatedFeeWei.val = 10 ^ 13 := rfl
  by_cases h : fee > maxEstimatedFeeWei
  · have hlt : 10 ^ 13 < fee.val := hcap ▸ h
    rw [capEstimatedFee, if_pos h, hcap]
    omega
  · have hle : fee.val ≤ 10 ^ 13 := hcap ▸ Nat.not_lt.mp h
    rw [capEstimatedFee, if_neg h]
    omega

theorem attachedFee_val (overallFee : Felt252) (feeType : Fee) :
    (attachedFee overallFee feeType).val = feeWei overallFee feeType := by
  cases feeType with
  | default => rfl
  | estimate => exact capEstimatedFee_val overallFee
  | noFee => rfl

theorem feeWei_le (overallFee : Felt252) (feeType : Fee) : feeWei overallFee feeType ≤ 10 ^ 13 := by
  cases feeType <;> simp only [feeWei] <;> omega

/-- The fee is zero without a fee, and for an estimate of zero. -/
theorem feeWei_eq_zero {overallFee : Felt252} {feeType : Fee} :
    feeWei overallFee feeType = 0
      ↔ feeType = .noFee ∨ feeType = .estimate ∧ overallFee = 0 := by
  cases feeType with
  | default => simp [feeWei]
  | estimate =>
      have hzero : overallFee = 0 ↔ overallFee.val = 0 := Fin.ext_iff
      have hmin : min overallFee.val (10 ^ 13) = 0 ↔ overallFee.val = 0 := by omega
      refine (hmin.trans hzero.symm).trans ⟨fun h => .inr ⟨rfl, h⟩, fun h => ?_⟩
      cases h with
      | inl h => cases h
      | inr h => exact h.2
  | noFee => simp [feeWei]

/-- The value attached, as an integer. -/
theorem feeToU256_attachedFee (overallFee : Felt252) (feeType : Fee) :
    (feeToU256 (attachedFee overallFee feeType)).toNat = feeWei overallFee feeType := by
  rw [feeToU256, feltToU256_toNat, attachedFee_val]

/-- The fee metric does not panic on it. -/
theorem asU128_attachedFee (overallFee : Felt252) (feeType : Fee) :
    ∃ w : U128, Utils.asU128 (feeToU256 (attachedFee overallFee feeType)) = .ok w
      ∧ w.toNat = feeWei overallFee feeType := by
  have hval := feeToU256_attachedFee overallFee feeType
  have hlt : (feeToU256 (attachedFee overallFee feeType)).toNat < 2 ^ 128 := by
    rw [hval]
    exact Nat.lt_of_le_of_lt (feeWei_le overallFee feeType) (by decide)
  refine ⟨_, if_pos hlt, ?_⟩
  rw [BitVec.toNat_setWidth, Nat.mod_eq_of_lt hlt, hval]

/-- The window of a fresh bridge and the messaging contract. -/
def InWindow (value : U256) : Prop :=
  0 < value ∧ value < StarkStateBridge.defaultStarkFeeLimit ∧ value ≤ StarknetMessaging.maxL1MsgFee

/-- The cap is below both upper bounds: only zero is outside. -/
theorem inWindow_iff (overallFee : Felt252) (feeType : Fee) :
    InWindow (feeToU256 (attachedFee overallFee feeType))
      ↔ ¬ (feeType = .noFee ∨ feeType = .estimate ∧ overallFee = 0) := by
  have hval := feeToU256_attachedFee overallFee feeType
  have hle := feeWei_le overallFee feeType
  have hlimit : StarkStateBridge.defaultStarkFeeLimit.toNat = 10 ^ 14 := by decide
  have hmax : StarknetMessaging.maxL1MsgFee.toNat = 10 ^ 18 := by decide
  rw [← feeWei_eq_zero, InWindow, BitVec.lt_def, BitVec.lt_def, BitVec.le_def, hval, hlimit, hmax]
  show 0 < _ ∧ _ ↔ _
  omega

/-! ## The two computations -/

/-- The executor, from an event it receives to its propagation. -/
theorem executor_attaches (feeType : Fee) (s : Relay) (overallFee : Felt252)
    {event : TreeChanged} {channel : Mpsc TreeChanged channelCapacity}
    (hreceiving : s.path.executor = .receiving)
    (hrecv : s.path.channel.recv? = some (event, channel)) :
    (run (Relay.step feeType) s [.recv, .estimated (.ok overallFee)]).path.executor
      = .propagating event (feeToU256 (attachedFee overallFee feeType)) := by
  have hstep : (s.step feeType .recv).path
      = EventPath.handle feeType { s.path with channel } event := by
    simp only [Relay.step, Relay.pathStep, EventPath.step, hreceiving, hrecv]
  rw [run_cons, run_cons, run_nil]
  simp only [Relay.step, Relay.pathStep] at hstep ⊢
  rw [hstep]
  cases feeType <;> rfl

/-- The poller, from roots that differ to its propagation. -/
theorem poller_attaches (feeType : Fee) (s : Relay) (overallFee : Felt252) {l1Root : U256}
    {l2Root : L2RootResult} {response : L2Response} (hfetching : s.poller = .fetching)
    (hfetch : fetchRoots l1Root response = .ok (l1Root, l2Root))
    (hsync : synced l1Root l2Root = false) :
    (run (Relay.step feeType) s
        [.fetched (.ok l1Root) response, .pollEstimated (.ok overallFee)]).poller
      = .propagating l1Root (feeToU256 (attachedFee overallFee feeType)) := by
  have hstep : s.step feeType (.fetched (.ok l1Root) response)
      = s.getAndCompareRoots feeType l1Root l2Root := by
    simp only [Relay.step, hfetching, Except.bind, hfetch]
  rw [run_cons, run_cons, run_nil, hstep]
  simp only [Relay.getAndCompareRoots, hsync]
  cases feeType <;> rfl

/-! ## Every propagation of every run -/

/-- A task starts a propagation with the value. -/
def Attaches (s s' : Relay) (value : U256) : Prop :=
  (∃ event, s'.path.executor = .propagating event value ∧ s.path.executor ≠ s'.path.executor)
    ∨ ∃ l1Root, s'.poller = .propagating l1Root value ∧ s.poller ≠ s'.poller

/-- The tasks wait for an estimate only if the fee is to be estimated. -/
structure EstimatesOnly (feeType : Fee) (s : Relay) : Prop where
  executor : ∀ {event root}, s.path.executor = .estimating event root → feeType = .estimate
  poller : ∀ {l1Root root}, s.poller = .estimating l1Root root → feeType = .estimate

variable {feeType : Fee}

/-- The value of a propagation is that of a fee, for the estimate a step was
given. -/
def Priced (feeType : Fee) (estimated : Felt252 → Prop) (value : U256) : Prop :=
  ∃ overallFee, (feeType = .estimate → estimated overallFee)
    ∧ value = feeToU256 (attachedFee overallFee feeType)

/-- A constant fee asks for no estimate. -/
theorem priced_of_ne {estimated : Felt252 → Prop} (h : feeType ≠ .estimate) :
    Priced feeType estimated (feeToU256 (attachedFee 0 feeType)) :=
  ⟨0, fun heq => absurd heq h, rfl⟩

/-- What a step can make of the executor `e`. -/
def ExecutorMoves (feeType : Fee) (estimated : Felt252 → Prop) (e : Executor) : Executor → Prop
  | .estimating event root => .estimating event root = e ∨ feeType = .estimate
  | .propagating event value => .propagating event value = e ∨ Priced feeType estimated value
  | _ => True

/-- What a step can make of the poller `p`. -/
def PollerMoves (feeType : Fee) (estimated : Felt252 → Prop) (p : Poller) : Poller → Prop
  | .estimating l1Root root => .estimating l1Root root = p ∨ feeType = .estimate
  | .propagating l1Root value => .propagating l1Root value = p ∨ Priced feeType estimated value
  | _ => True

theorem executorMoves_refl {estimated : Felt252 → Prop} (e : Executor) :
    ExecutorMoves feeType estimated e e := by
  cases e with
  | estimating event root => exact .inl rfl
  | propagating event value => exact .inl rfl
  | _ => trivial

theorem pollerMoves_refl {estimated : Felt252 → Prop} (p : Poller) :
    PollerMoves feeType estimated p p := by
  cases p with
  | estimating l1Root root => exact .inl rfl
  | propagating l1Root value => exact .inl rfl
  | _ => trivial

/-- A step of the event path: the estimate is the one it brings. -/
theorem executor_moves (s : EventPath) (a : EventPath.Action)
    (hest : ∀ {event root}, s.executor = .estimating event root → feeType = .estimate) :
    ExecutorMoves feeType (fun overallFee => a = .estimated (.ok overallFee)) s.executor
      (s.step feeType a).executor := by
  have hsame : (s.step feeType a).executor = s.executor →
      ExecutorMoves feeType (fun overallFee => a = .estimated (.ok overallFee)) s.executor
        (s.step feeType a).executor := by
    intro h
    rw [h]
    exact executorMoves_refl s.executor
  cases a with
  | send event =>
      apply hsame
      simp only [EventPath.step]
      split
      · exact EventPath.executor_sendEvent _ event
      · rfl
  | sendAgain =>
      apply hsame
      simp only [EventPath.step]
      split
      · exact EventPath.executor_sendEvent s _
      · rfl
  | giveUp =>
      apply hsame
      simp only [EventPath.step]
      split <;> rfl
  | recv =>
      simp only [EventPath.step]
      split
      · split
        · cases feeType with
          | default => exact .inr (priced_of_ne (by decide))
          | noFee => exact .inr (priced_of_ne (by decide))
          | estimate => exact .inr rfl
        · split
          · trivial
          · exact executorMoves_refl s.executor
      · exact executorMoves_refl s.executor
  | estimated outcome =>
      simp only [EventPath.step]
      split
      · rename_i hexecutor
        obtain rfl := hest hexecutor
        cases outcome with
        | ok overallFee => exact .inr ⟨overallFee, fun _ => rfl, rfl⟩
        | error e => trivial
      · exact executorMoves_refl s.executor
  | propagated outcome =>
      simp only [EventPath.step]
      split
      · cases outcome <;> trivial
      · exact executorMoves_refl s.executor

theorem poller_moves (s : Relay) (a : Relay.Action)
    (hest : ∀ {l1Root root}, s.poller = .estimating l1Root root → feeType = .estimate) :
    PollerMoves feeType (fun overallFee => a = .pollEstimated (.ok overallFee)) s.poller
      (s.step feeType a).poller := by
  cases a with
  | event event =>
      rw [(Relay.frame_event feeType s event).1]
      exact pollerMoves_refl s.poller
  | poll =>
      simp only [Relay.step]
      split
      · trivial
      · exact pollerMoves_refl s.poller
  | fetched l1Root response =>
      simp only [Relay.step]
      split
      · split
        · simp only [Relay.getAndCompareRoots]
          split
          · trivial
          · cases feeType with
            | default => exact .inr (priced_of_ne (by decide))
            | noFee => exact .inr (priced_of_ne (by decide))
            | estimate => exact .inr rfl
        · trivial
        · trivial
      · exact pollerMoves_refl s.poller
  | pollEstimated outcome =>
      simp only [Relay.step]
      split
      · rename_i hpoller
        obtain rfl := hest hpoller
        cases outcome with
        | ok overallFee => exact .inr ⟨overallFee, fun _ => rfl, rfl⟩
        | error e => trivial
      · exact pollerMoves_refl s.poller
  | pollPropagated outcome =>
      simp only [Relay.step]
      split
      · cases outcome <;> trivial
      · exact pollerMoves_refl s.poller
  | _ => exact pollerMoves_refl s.poller

theorem ExecutorMoves.mono {p q : Felt252 → Prop} {e e' : Executor}
    (h : ExecutorMoves feeType p e e') (hpq : ∀ overallFee, p overallFee → q overallFee) :
    ExecutorMoves feeType q e e' := by
  cases e' with
  | propagating event value =>
      cases h with
      | inl h => exact .inl h
      | inr h =>
          obtain ⟨overallFee, hp, hvalue⟩ := h
          exact .inr ⟨overallFee, fun heq => hpq overallFee (hp heq), hvalue⟩
  | _ => exact h

/-- A step of the relay moves the executor as a step of the event path does. -/
theorem relay_executor_moves (s : Relay) (a : Relay.Action) (hest : EstimatesOnly feeType s) :
    ExecutorMoves feeType (fun overallFee => a = .estimated (.ok overallFee)) s.path.executor
      (s.step feeType a).path.executor := by
  have hpath : ∀ b : EventPath.Action, (∀ outcome, b = .estimated outcome → a = .estimated outcome) →
      ExecutorMoves feeType (fun overallFee => a = .estimated (.ok overallFee)) s.path.executor
        (s.path.step feeType b).executor := by
    intro b hb
    exact (executor_moves s.path b hest.executor).mono fun overallFee => hb (.ok overallFee)
  cases Relay.path_step feeType s a with
  | inl hsame =>
      rw [hsame]
      exact executorMoves_refl s.path.executor
  | inr hmoves =>
      cases hmoves with
      | inl hmoves =>
          obtain ⟨b, -, hgiven, hnext⟩ := hmoves
          rw [hnext]
          exact hpath b hgiven
      | inr hreceives =>
          obtain ⟨event, -, -, hnext⟩ := hreceives
          rw [hnext]
          exact hpath (.send event) (by simp)

/-- The step lemma of `EstimatesOnly`. -/
theorem EstimatesOnly.step (h : EstimatesOnly feeType s) (a : Relay.Action) :
    EstimatesOnly feeType (s.step feeType a) := by
  constructor
  · intro event root hexecutor
    have hmoves := relay_executor_moves s a h
    rw [hexecutor] at hmoves
    cases hmoves with
    | inl hsame => exact h.executor hsame.symm
    | inr hfee => exact hfee
  · intro l1Root root hpoller
    have hmoves := poller_moves s a h.poller
    rw [hpoller] at hmoves
    cases hmoves with
    | inl hsame => exact h.poller hsame.symm
    | inr hfee => exact hfee

theorem estimatesOnly_run (feeType : Fee) (now : Nat) (as : List Relay.Action) :
    EstimatesOnly feeType (run (Relay.step feeType) (.start now) as) :=
  run_invariant (Relay.step feeType) (P := fun _ _ => True) (fun _ a h _ => h.step a)
    ⟨nofun, nofun⟩ (along_true _ _ as)

/-- **In every run, whichever task starts a propagation attaches the value of
the fee**, and the estimate it is made from is the one the step was given. -/
theorem attaches_priced (feeType : Fee) (now : Nat) (as : List Relay.Action) (a : Relay.Action)
    {value : U256}
    (h : Attaches (run (Relay.step feeType) (.start now) as)
      (run (Relay.step feeType) (.start now) (as ++ [a])) value) :
    Priced feeType (fun overallFee => a = .estimated (.ok overallFee)
      ∨ a = .pollEstimated (.ok overallFee)) value := by
  have hest := estimatesOnly_run feeType now as
  rw [run_snoc] at h
  cases h with
  | inl h =>
      obtain ⟨event, hexecutor, hne⟩ := h
      have hmoves := relay_executor_moves _ a hest
      rw [hexecutor] at hmoves hne
      cases hmoves with
      | inl hsame => exact absurd hsame.symm hne
      | inr hpriced =>
          obtain ⟨overallFee, hgiven, hvalue⟩ := hpriced
          exact ⟨overallFee, fun heq => .inl (hgiven heq), hvalue⟩
  | inr h =>
      obtain ⟨l1Root, hpoller, hne⟩ := h
      have hmoves := poller_moves _ a hest.poller
      rw [hpoller] at hmoves hne
      cases hmoves with
      | inl hsame => exact absurd hsame.symm hne
      | inr hpriced =>
          obtain ⟨overallFee, hgiven, hvalue⟩ := hpriced
          exact ⟨overallFee, fun heq => .inr (hgiven heq), hvalue⟩

/-- Both tasks attach the value, given the estimate. -/
structure AttachedByBoth (feeType : Fee) (overallFee : Felt252) (value : U256) : Prop where
  executor : ∀ (s : Relay) event channel, s.path.executor = .receiving →
    s.path.channel.recv? = some (event, channel) →
    (run (Relay.step feeType) s [.recv, .estimated (.ok overallFee)]).path.executor
      = .propagating event value
  poller : ∀ (s : Relay) l1Root l2Root response, s.poller = .fetching →
    fetchRoots l1Root response = .ok (l1Root, l2Root) → synced l1Root l2Root = false →
    (run (Relay.step feeType) s
        [.fetched (.ok l1Root) response, .pollEstimated (.ok overallFee)]).poller
      = .propagating l1Root value

/-- **The value of a propagation**: for every fee mode and every estimate both
tasks attach the same value, the capped fee as an integer, byte for byte; the
metric does not panic on it; and it is in the window exactly when it is not
zero, which it is without a fee and for an estimate of zero. No other value
is attached in any run. -/
theorem message_fee (feeType : Fee) :
    (∀ overallFee : Felt252,
      let value := feeToU256 (attachedFee overallFee feeType)
      AttachedByBoth feeType overallFee value
        ∧ value.toNat = feeWei overallFee feeType
        ∧ Utils.fromBigEndian (Utils.toBytesBe (attachedFee overallFee feeType)) = .ok value
        ∧ (∃ w : U128, Utils.asU128 value = .ok w ∧ w.toNat = feeWei overallFee feeType)
        ∧ (InWindow value ↔ ¬ (feeType = .noFee ∨ feeType = .estimate ∧ overallFee = 0)))
      ∧ ∀ now as a value,
          Attaches (run (Relay.step feeType) (.start now) as)
            (run (Relay.step feeType) (.start now) (as ++ [a])) value →
          ∃ overallFee, (feeType = .estimate →
              a = .estimated (.ok overallFee) ∨ a = .pollEstimated (.ok overallFee))
            ∧ value = feeToU256 (attachedFee overallFee feeType) := by
  refine ⟨fun overallFee => ⟨⟨?_, ?_⟩, ?_, ?_, ?_, ?_⟩, ?_⟩
  · intro s event channel hreceiving hrecv
    exact executor_attaches feeType s overallFee hreceiving hrecv
  · intro s l1Root l2Root response hfetching hfetch hsync
    exact poller_attaches feeType s overallFee hfetching hfetch hsync
  · exact feeToU256_attachedFee overallFee feeType
  · exact Utils.fromBigEndian_toBytesBe _
  · exact asU128_attachedFee overallFee feeType
  · exact inWindow_iff overallFee feeType
  · intro now as a value h
    exact attaches_priced feeType now as a h

/-- A bridge fresh from its constructor takes the value of a propagation
exactly when it is not zero. -/
theorem fresh_bridge_accepts_iff {deployer worldIDIdentityManager this sender : EthAddress}
    {starkWorldIDAddress : U256} {w : World} {b : StarkStateBridge.Storage}
    (hconstruct : StarkStateBridge.construct deployer worldIDIdentityManager
      starkWorldIDAddress w.coreAddress = .ok b)
    (hroot : (w.latestRoot worldIDIdentityManager).isSome) (overallFee : Felt252)
    (feeType : Fee) :
    StarkStateBridge.Succeeds b this w
        ⟨sender, feeToU256 (attachedFee overallFee feeType)⟩ .propagateRoot
      ↔ ¬ (feeType = .noFee ∨ feeType = .estimate ∧ overallFee = 0) := by
  obtain ⟨-, -, rfl⟩ := StarkStateBridge.construct_eq_ok.mp hconstruct
  rw [← inWindow_iff]
  exact StarkStateBridge.succeeds_iff rfl rfl hroot

/-- Without a fee the executor attaches zero, and so it does for an estimate
of zero; the messaging contract refuses it. -/
theorem zero_fee_refused :
    (run (Relay.step .noFee) (.start 0) [.event ⟨5⟩, .recv]).path.executor
        = .propagating ⟨5⟩ 0
      ∧ (run (Relay.step .estimate) (.start 0)
          [.event ⟨5⟩, .recv, .estimated (.ok 0)]).path.executor = .propagating ⟨5⟩ 0
      ∧ ¬ InWindow 0
      ∧ ¬ StarkStateBridge.Succeeds StarkStateBridge.sampleBridge 9 StarkStateBridge.sampleWorld
          ⟨4, 0⟩ .propagateRoot := by
  refine ⟨rfl, rfl, fun hwindow => absurd hwindow.1 (by decide), ?_⟩
  intro hok
  have hwindow := (StarkStateBridge.succeeds_iff rfl rfl (by rfl)).mp hok
  exact absurd hwindow.1 (by decide)

end WorldIDBridge.Service
