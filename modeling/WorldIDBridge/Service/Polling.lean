import WorldIDBridge.Service.Relay

/-!
# get_and_compare_roots and compare_roots

Both functions read the root of each chain and decide whether the two are in
step: the first propagates if they are not, the second only says so. This
module has them with every request they make, shows that the poller of the
relay runs the first, and says on which inputs the two decide alike.
-/

namespace WorldIDBridge.Service

open Checked Prog

/-! ## The two functions -/

/-- What the poller asks of the nodes, of the cache and of the propagation. -/
inductive PollRequest where
  | getL1RootU256
  /-- The L2 call `latest_root()`. -/
  | latestRoot
  | cacheInsert (root : U256)
  | estimateMessagingFee (rootAsFelts : List Felt252)
  | propagateRootWithRetry (value : U256)
  deriving DecidableEq, Repr

@[reducible] def PollResponse : PollRequest → Type
  | .getL1RootU256 => Except Failure U256
  | .latestRoot => L2Response
  | .cacheInsert _ => Unit
  | .estimateMessagingFee _ => Except String Felt252
  | .propagateRootWithRetry _ => Except StateBridgeError Unit

/-- What an `eyre::Report` of the two functions was made of. -/
inductive PollError where
  | report (display : String)
  | propagateRoot (e : StateBridgeError)
  deriving DecidableEq, Repr

abbrev PollTask := Prog PollRequest PollResponse

def pollRequest (q : PollRequest) : PollTask (PollResponse q) := Prog.ask q

/-- The outcome of a conversion: an error is returned, a panic ends the task. -/
def orFail {α : Type} : Except Failure α → ExceptT PollError PollTask α
  | .ok a => pure a
  | .error (.error display) => throw (.report display)
  | .error (.panic _) => ExceptT.lift panic

namespace StateBridge

/-- `fetch_roots` with its two requests. -/
def fetchRoots : ExceptT PollError PollTask (U256 × L2RootResult) := do
  let l1Root ← ExceptT.lift (pollRequest .getL1RootU256)
  let l1Root ← orFail l1Root
  let response ← ExceptT.lift (pollRequest .latestRoot)
  orFail (Service.fetchRoots l1Root response)

/-- The fee of `get_and_compare_roots`. -/
def pollFee (feeType : Fee) (rootAsFelts : List Felt252) : ExceptT PollError PollTask Felt252 :=
  match feeType with
  | .default => return defaultFee
  | .estimate => do
      let estimated ← mapErr .report (pollRequest (.estimateMessagingFee rootAsFelts))
      return capEstimatedFee estimated
  | .noFee => return noFee

/-- The end of `get_and_compare_roots`: the fee and the propagation. -/
def propagate (feeType : Fee) (rootAsFelts : List Felt252) : ExceptT PollError PollTask Unit := do
  let fee ← pollFee feeType rootAsFelts
  mapErr .propagateRoot (pollRequest (.propagateRootWithRetry (feeToU256 fee)))

def getAndCompareRoots (feeType : Fee) : ExceptT PollError PollTask Unit := do
  let (l1Root, l2Root) ← fetchRoots
  if synced l1Root l2Root then return
  ExceptT.lift (pollRequest (.cacheInsert l1Root))
  let rootAsFelts ← orFail (Utils.intoFelt l1Root)
  propagate feeType rootAsFelts

def compareRoots : ExceptT PollError PollTask Bool := do
  let (l1Root, l2Root) ← fetchRoots
  match l2Root with
  | .root l2Root => return decide (l1Root = l2Root)
  | .noRootsSeen => return true

end StateBridge

/-- The call from the roots on. -/
def StateBridge.afterFetch (feeType : Fee) :
    Except Failure (U256 × L2RootResult) → PollTask (Except PollError Unit)
  | .error (.error display) => ret (.error (.report display))
  | .error (.panic _) => panic
  | .ok (l1Root, l2Root) =>
      if synced l1Root l2Root then ret (.ok ())
      else call (.cacheInsert l1Root) fun _ => (propagate feeType (intoFelt l1Root)).run

/-- The call request by request, up to the fee. -/
theorem StateBridge.getAndCompareRoots_run (feeType : Fee) :
    (getAndCompareRoots feeType).run = call .getL1RootU256 fun
      | .error (.error display) => ret (.error (.report display))
      | .error (.panic _) => panic
      | .ok l1Root => call .latestRoot fun response =>
          afterFetch feeType (Service.fetchRoots l1Root response) := by
  refine congrArg (call PollRequest.getL1RootU256) (funext fun l1Root => ?_)
  cases l1Root with
  | error failure => cases failure <;> rfl
  | ok l1Root =>
      refine congrArg (call PollRequest.latestRoot) (funext fun response => ?_)
      show Prog.bind (orFail (Service.fetchRoots l1Root response)).run _ = _
      cases Service.fetchRoots l1Root response with
      | error failure => cases failure <;> rfl
      | ok roots =>
          obtain ⟨l1Root, l2Root⟩ := roots
          have hfelts : orFail (Utils.intoFelt l1Root) = pure (intoFelt l1Root) := by
            rw [Utils.intoFelt_total]
            rfl
          show ExceptT.run (if synced l1Root l2Root then pure () else _)
            = if synced l1Root l2Root then _ else _
          rw [hfelts]
          cases synced l1Root l2Root <;> rfl

/-! ## What the L2 node says -/

/-- The call reverted with `NO_ROOTS_SEEN`. -/
def ReportsNoRoots (response : L2Response) : Prop := response = .error (some .noRootsSeen)

/-- The call returned two felts that are read as `root`. -/
def ReturnsRoot (response : L2Response) (root : U256) : Prop :=
  ∃ values, response = .ok values ∧ Utils.feltsToU256 values = .ok root

theorem getL2RootResult_eq_ok {response : L2Response} {l2Root : L2RootResult} :
    getL2RootResult response = .ok l2Root
      ↔ (ReportsNoRoots response ∧ l2Root = .noRootsSeen)
        ∨ ∃ root, ReturnsRoot response root ∧ l2Root = .root root := by
  cases response with
  | ok values =>
      simp only [getL2RootResult, bind_eq_ok, pure_eq_ok, Except.ok.injEq]
      constructor
      · intro h
        obtain ⟨root, hroot, heq⟩ := h
        exact .inr ⟨root, ⟨values, rfl, hroot⟩, heq.symm⟩
      · intro h
        cases h with
        | inl h => cases h.1
        | inr h =>
            obtain ⟨root, ⟨_, hvalues, hroot⟩, rfl⟩ := h
            cases hvalues
            exact ⟨root, hroot, rfl⟩
  | error e =>
      have hno : ¬ ∃ root, ReturnsRoot (.error e) root ∧ l2Root = .root root := by
        intro h
        obtain ⟨_, ⟨_, hok, _⟩, _⟩ := h
        cases hok
      rw [or_iff_left hno]
      by_cases he : e = some .noRootsSeen
      · subst he
        constructor
        · intro h
          exact ⟨rfl, (Except.ok.inj h).symm⟩
        · intro h
          exact congrArg Except.ok h.2.symm
      · have hfails : getL2RootResult (.error e)
            = .error (.error "L2 latest_root() call failed") :=
          if_neg (by simpa [isNoRootsError] using he)
        rw [hfails]
        exact iff_of_false (by simp) (fun h => he (Except.error.inj h.1))

theorem getL2RootResult_eq_noRootsSeen {response : L2Response} :
    getL2RootResult response = .ok .noRootsSeen ↔ ReportsNoRoots response := by
  rw [getL2RootResult_eq_ok]
  constructor
  · intro h
    cases h with
    | inl h => exact h.1
    | inr h =>
        obtain ⟨_, _, h⟩ := h
        cases h
  · intro h
    exact .inl ⟨h, rfl⟩

/-- Both roots are read, and neither is zero. -/
theorem fetchRoots_eq_ok {l1Root : U256} {response : L2Response} {roots : U256 × L2RootResult} :
    fetchRoots l1Root response = .ok roots
      ↔ l1Root ≠ 0 ∧ roots.1 = l1Root ∧ roots.2 ≠ .root 0
        ∧ getL2RootResult response = .ok roots.2 := by
  obtain ⟨l1, l2⟩ := roots
  constructor
  · intro h
    obtain ⟨l2Root, hread, h⟩ := bind_eq_ok.mp h
    obtain ⟨hl1, h⟩ := failIf_bind_eq_ok.mp h
    obtain ⟨hl2, h⟩ := failIf_bind_eq_ok.mp h
    cases h
    exact ⟨hl1, rfl, hl2, hread⟩
  · rintro ⟨hl1, rfl, hl2, hread⟩
    exact bind_eq_ok.mpr ⟨l2, hread, failIf_bind_eq_ok.mpr ⟨hl1,
      failIf_bind_eq_ok.mpr ⟨hl2, rfl⟩⟩⟩

/-! ## A call on its inputs -/

/-- What the two chains and the propagation answer during one call. -/
structure PollInputs where
  l1Root : U256
  response : L2Response
  estimate : List Felt252 → Except String Felt252
  propagation : U256 → Except StateBridgeError Unit

namespace PollInputs

def answer (i : PollInputs) : ∀ q, PollResponse q
  | .getL1RootU256 => .ok i.l1Root
  | .latestRoot => i.response
  | .cacheInsert _ => ()
  | .estimateMessagingFee rootAsFelts => i.estimate rootAsFelts
  | .propagateRootWithRetry value => i.propagation value

/-- What the call asks, with the answers, and what it returns. -/
def run {α : Type} (i : PollInputs) (f : ExceptT PollError PollTask α) :
    List (Exchange PollRequest PollResponse) × Option (Except PollError α) :=
  f.run.against i.answer

/-- The call submits a propagation. -/
def Submits (i : PollInputs) (feeType : Fee) : Prop :=
  ∃ value outcome, ⟨.propagateRootWithRetry value, outcome⟩
    ∈ (i.run (StateBridge.getAndCompareRoots feeType)).1

/-- The two requests of `fetch_roots`. -/
def reads (i : PollInputs) : List (Exchange PollRequest PollResponse) :=
  [⟨.getL1RootU256, .ok i.l1Root⟩, ⟨.latestRoot, i.response⟩]

/-- The fee is known: it needs no estimate, or the estimate succeeds. -/
def Priced (i : PollInputs) (feeType : Fee) : Prop :=
  feeType = .estimate → ∃ fee, i.estimate (intoFelt i.l1Root) = .ok fee

/-- The chains are out of step. -/
def OutOfSync (i : PollInputs) : Prop :=
  i.l1Root ≠ 0 ∧ (ReportsNoRoots i.response
    ∨ ∃ root, ReturnsRoot i.response root ∧ root ≠ 0 ∧ root ≠ i.l1Root)

variable {i : PollInputs} {feeType : Fee}

theorem run_bind {α β : Type} (i : PollInputs) (x : ExceptT PollError PollTask α)
    (f : α → ExceptT PollError PollTask β) :
    i.run (x >>= f) = match i.run x with
      | (tr, some (.ok a)) => (tr ++ (i.run (f a)).1, (i.run (f a)).2)
      | (tr, some (.error e)) => (tr, some (.error e))
      | (tr, none) => (tr, none) := by
  simp only [run, against_run_bind]
  obtain ⟨tr, r⟩ := x.run.against i.answer
  cases r with
  | none => rfl
  | some r => cases r <;> rfl

theorem run_fetchRoots (i : PollInputs) :
    i.run StateBridge.fetchRoots = (i.reads, match fetchRoots i.l1Root i.response with
      | .ok roots => some (.ok roots)
      | .error (.error display) => some (.error (.report display))
      | .error (.panic _) => none) := by
  have hrun : i.run StateBridge.fetchRoots
      = (i.reads ++ (i.run (orFail (fetchRoots i.l1Root i.response))).1,
        (i.run (orFail (fetchRoots i.l1Root i.response))).2) := rfl
  rw [hrun]
  cases fetchRoots i.l1Root i.response with
  | ok roots => rfl
  | error failure => cases failure <;> rfl

/-- Without two roots to compare, the call fails and submits nothing. -/
theorem run_of_fetchRoots_error (feeType : Fee) {failure : Failure}
    (h : fetchRoots i.l1Root i.response = .error failure) :
    (i.run (StateBridge.getAndCompareRoots feeType)).1 = i.reads
      ∧ (i.run (StateBridge.getAndCompareRoots feeType)).2 ≠ some (.ok ())
      ∧ (i.run StateBridge.compareRoots).2 ≠ some (.ok true) := by
  rw [StateBridge.getAndCompareRoots, StateBridge.compareRoots, run_bind, run_bind,
    run_fetchRoots, h]
  cases failure with
  | error display => exact ⟨rfl, nofun, nofun⟩
  | panic message => exact ⟨rfl, nofun, nofun⟩

/-- In step: the call returns at once. -/
theorem run_of_synced {l2Root : L2RootResult}
    (h : fetchRoots i.l1Root i.response = .ok (i.l1Root, l2Root))
    (hsync : synced i.l1Root l2Root = true) :
    i.run (StateBridge.getAndCompareRoots feeType) = (i.reads, some (.ok ())) := by
  rw [StateBridge.getAndCompareRoots, run_bind, run_fetchRoots, h]
  simp only [hsync]
  rfl

/-- Out of step: the root goes into the cache, and a propagation is tried. -/
theorem run_of_not_synced {l2Root : L2RootResult}
    (h : fetchRoots i.l1Root i.response = .ok (i.l1Root, l2Root))
    (hsync : synced i.l1Root l2Root = false) :
    i.run (StateBridge.getAndCompareRoots feeType)
      = (i.reads ++ ⟨.cacheInsert i.l1Root, ()⟩
          :: (i.run (StateBridge.propagate feeType (intoFelt i.l1Root))).1,
        (i.run (StateBridge.propagate feeType (intoFelt i.l1Root))).2) := by
  have hfelts : orFail (Utils.intoFelt i.l1Root) = pure (intoFelt i.l1Root) := by
    rw [Utils.intoFelt_total]
    rfl
  rw [StateBridge.getAndCompareRoots, run_bind, run_fetchRoots, h]
  simp only [hsync, hfelts]
  rfl

theorem run_pollFee_estimate (i : PollInputs) (rootAsFelts : List Felt252) :
    i.run (StateBridge.pollFee .estimate rootAsFelts)
      = ([⟨.estimateMessagingFee rootAsFelts, i.estimate rootAsFelts⟩],
        some (((i.estimate rootAsFelts).map capEstimatedFee).mapError .report)) := by
  have hrun : i.run (StateBridge.pollFee .estimate rootAsFelts)
      = (⟨.estimateMessagingFee rootAsFelts, i.estimate rootAsFelts⟩
          :: (i.run (ExceptT.mk (ret ((i.estimate rootAsFelts).mapError PollError.report))
            >>= fun estimated => pure (capEstimatedFee estimated))).1,
        (i.run (ExceptT.mk (ret ((i.estimate rootAsFelts).mapError PollError.report))
          >>= fun estimated => pure (capEstimatedFee estimated))).2) := rfl
  rw [hrun]
  cases i.estimate rootAsFelts <;> rfl

/-- With a fee, the end of the call is the propagation. -/
theorem run_propagate {rootAsFelts : List Felt252} {tr : List (Exchange PollRequest PollResponse)}
    {fee : Felt252}
    (h : i.run (StateBridge.pollFee feeType rootAsFelts) = (tr, some (.ok fee))) :
    i.run (StateBridge.propagate feeType rootAsFelts)
      = (tr ++ [⟨.propagateRootWithRetry (feeToU256 fee), i.propagation (feeToU256 fee)⟩],
        some ((i.propagation (feeToU256 fee)).mapError .propagateRoot)) := by
  rw [StateBridge.propagate, run_bind, h]
  rfl

/-- The end of the call submits exactly when it has a fee. Without one it
fails. -/
theorem run_propagate_cases (i : PollInputs) (feeType : Fee) :
    (i.Priced feeType ∧ ∃ value outcome, ⟨.propagateRootWithRetry value, outcome⟩
        ∈ (i.run (StateBridge.propagate feeType (intoFelt i.l1Root))).1)
      ∨ (¬ i.Priced feeType
        ∧ (i.run (StateBridge.propagate feeType (intoFelt i.l1Root))).1
            = [⟨.estimateMessagingFee (intoFelt i.l1Root), i.estimate (intoFelt i.l1Root)⟩]
        ∧ (i.run (StateBridge.propagate feeType (intoFelt i.l1Root))).2 ≠ some (.ok ())) := by
  -- a fee, from whatever requests, is followed by the propagation
  have hfee : ∀ tr fee,
      i.run (StateBridge.pollFee feeType (intoFelt i.l1Root)) = (tr, some (.ok fee)) →
      ∃ value outcome, ⟨.propagateRootWithRetry value, outcome⟩
        ∈ (i.run (StateBridge.propagate feeType (intoFelt i.l1Root))).1 := by
    intro tr fee h
    refine ⟨feeToU256 fee, i.propagation (feeToU256 fee), ?_⟩
    rw [run_propagate h]
    exact List.mem_append_right _ (List.mem_singleton_self _)
  cases feeType with
  | default => exact .inl ⟨nofun, hfee [] defaultFee rfl⟩
  | noFee => exact .inl ⟨nofun, hfee [] noFee rfl⟩
  | estimate =>
      have hrun := run_pollFee_estimate i (intoFelt i.l1Root)
      cases hest : i.estimate (intoFelt i.l1Root) with
      | ok fee =>
          rw [hest] at hrun
          exact .inl ⟨fun _ => ⟨fee, hest⟩, hfee _ (capEstimatedFee fee) hrun⟩
      | error e =>
          refine .inr ⟨?_, ?_⟩
          · intro hpriced
            obtain ⟨fee, hfee⟩ := hpriced rfl
            rw [hest] at hfee
            cases hfee
          · rw [hest] at hrun
            rw [StateBridge.propagate, run_bind, hrun]
            exact ⟨rfl, by simp [Except.map, Except.mapError]⟩

/-! ## The decisions -/

/-- The three outcomes of `fetch_roots` the decisions turn on. -/
theorem fetchRoots_cases (i : PollInputs) :
    (∃ failure, fetchRoots i.l1Root i.response = .error failure)
      ∨ fetchRoots i.l1Root i.response = .ok (i.l1Root, .root i.l1Root)
      ∨ ∃ l2Root, fetchRoots i.l1Root i.response = .ok (i.l1Root, l2Root)
          ∧ synced i.l1Root l2Root = false := by
  cases h : fetchRoots i.l1Root i.response with
  | error failure => exact .inl ⟨failure, rfl⟩
  | ok roots =>
      obtain ⟨-, hl1, -, -⟩ := fetchRoots_eq_ok.mp h
      obtain ⟨l1Root, l2Root⟩ := roots
      obtain rfl : l1Root = i.l1Root := hl1
      by_cases hsync : l2Root = .root i.l1Root
      · subst hsync
        exact .inr (.inl rfl)
      · refine .inr (.inr ⟨l2Root, rfl, ?_⟩)
        cases l2Root with
        | noRootsSeen => rfl
        | root root =>
            refine decide_eq_false fun heq => ?_
            rw [heq] at hsync
            exact hsync rfl

theorem outOfSync_iff :
    i.OutOfSync ↔ ∃ l2Root, fetchRoots i.l1Root i.response = .ok (i.l1Root, l2Root)
      ∧ synced i.l1Root l2Root = false := by
  constructor
  · intro ⟨hl1, h⟩
    cases h with
    | inl hnone =>
        refine ⟨.noRootsSeen, fetchRoots_eq_ok.mpr ⟨hl1, rfl, nofun, ?_⟩, rfl⟩
        exact getL2RootResult_eq_ok.mpr (.inl ⟨hnone, rfl⟩)
    | inr hroot =>
        obtain ⟨root, hroot, hzero, hne⟩ := hroot
        refine ⟨.root root, fetchRoots_eq_ok.mpr ⟨hl1, rfl, by simpa using hzero, ?_⟩,
          decide_eq_false (Ne.symm hne)⟩
        exact getL2RootResult_eq_ok.mpr (.inr ⟨root, hroot, rfl⟩)
  · intro ⟨l2Root, hfetch, hsync⟩
    obtain ⟨hl1, -, hzero, hread⟩ := fetchRoots_eq_ok.mp hfetch
    refine ⟨hl1, ?_⟩
    cases getL2RootResult_eq_ok.mp hread with
    | inl h => exact .inl h.1
    | inr h =>
        obtain ⟨root, hroot, rfl⟩ := h
        refine .inr ⟨root, hroot, fun hz => hzero (by rw [hz]), fun heq => ?_⟩
        exact absurd (heq ▸ rfl) (of_decide_eq_false hsync)

theorem not_outOfSync_of_error {failure : Failure}
    (h : fetchRoots i.l1Root i.response = .error failure) : ¬ i.OutOfSync := by
  intro hout
  obtain ⟨_, hok, _⟩ := outOfSync_iff.mp hout
  rw [h] at hok
  cases hok

theorem not_outOfSync_of_synced
    (h : fetchRoots i.l1Root i.response = .ok (i.l1Root, .root i.l1Root)) : ¬ i.OutOfSync := by
  intro hout
  obtain ⟨_, hok, hsync⟩ := outOfSync_iff.mp hout
  rw [h] at hok
  cases hok
  exact absurd rfl (of_decide_eq_false hsync)

theorem notMem_reads (i : PollInputs) :
    ¬ ∃ value outcome, (⟨.propagateRootWithRetry value, outcome⟩
      : Exchange PollRequest PollResponse) ∈ i.reads := by
  simp [reads]

/-- The call submits exactly when the chains are out of step and there is a
fee. -/
theorem submits_iff (i : PollInputs) (feeType : Fee) :
    i.Submits feeType ↔ i.OutOfSync ∧ i.Priced feeType := by
  rcases fetchRoots_cases i with ⟨failure, hfail⟩ | hsync | ⟨l2Root, hfetch, hsync⟩
  · have hnot := not_outOfSync_of_error hfail
    rw [Submits, (run_of_fetchRoots_error feeType hfail).1]
    exact iff_of_false (notMem_reads i) (fun h => hnot h.1)
  · have hnot := not_outOfSync_of_synced hsync
    rw [Submits, run_of_synced hsync (decide_eq_true rfl)]
    exact iff_of_false (notMem_reads i) (fun h => hnot h.1)
  · have hout : i.OutOfSync := outOfSync_iff.mpr ⟨l2Root, hfetch, hsync⟩
    rw [Submits, run_of_not_synced hfetch hsync, and_iff_right hout]
    rcases run_propagate_cases i feeType with ⟨hpriced, value, outcome, hmem⟩ | ⟨hnot, htr, -⟩
    · refine iff_of_true ⟨value, outcome, ?_⟩ hpriced
      exact List.mem_append_right _ (List.mem_cons_of_mem _ hmem)
    · refine iff_of_false ?_ hnot
      rw [htr]
      simp [reads]

/-- A call that finds the chains out of step returns `Ok` only if it
submits. -/
theorem ok_without_submitting_iff (i : PollInputs) (feeType : Fee) :
    (i.run (StateBridge.getAndCompareRoots feeType)).2 = some (.ok ()) ∧ ¬ i.Submits feeType
      ↔ fetchRoots i.l1Root i.response = .ok (i.l1Root, .root i.l1Root) := by
  rw [submits_iff]
  rcases fetchRoots_cases i with ⟨failure, hfail⟩ | hsync | ⟨l2Root, hfetch, hsync⟩
  · refine iff_of_false (fun h => (run_of_fetchRoots_error feeType hfail).2.1 h.1) ?_
    rw [hfail]
    nofun
  · rw [run_of_synced hsync (decide_eq_true rfl)]
    exact iff_of_true ⟨rfl, fun h => not_outOfSync_of_synced hsync h.1⟩ hsync
  · have hout : i.OutOfSync := outOfSync_iff.mpr ⟨l2Root, hfetch, hsync⟩
    refine iff_of_false ?_ ?_
    · intro ⟨hok, hnot⟩
      rw [run_of_not_synced hfetch hsync] at hok
      rcases run_propagate_cases i feeType with ⟨hpriced, -⟩ | ⟨-, -, hne⟩
      · exact hnot ⟨hout, hpriced⟩
      · exact hne hok
    · intro hroot
      rw [hfetch] at hroot
      cases hroot
      exact absurd rfl (of_decide_eq_false hsync)

/-- `compare_roots` on two roots that were read. -/
theorem run_compareRoots {l2Root : L2RootResult}
    (h : fetchRoots i.l1Root i.response = .ok (i.l1Root, l2Root)) :
    (i.run StateBridge.compareRoots).2 = some (.ok (synced i.l1Root l2Root
      || decide (l2Root = .noRootsSeen))) := by
  rw [StateBridge.compareRoots, run_bind, run_fetchRoots, h]
  cases l2Root with
  | root root =>
      show some (Except.ok (decide (i.l1Root = root))) = _
      simp [synced]
  | noRootsSeen => rfl

theorem compareRoots_iff (i : PollInputs) :
    (i.run StateBridge.compareRoots).2 = some (.ok true)
      ↔ fetchRoots i.l1Root i.response = .ok (i.l1Root, .root i.l1Root)
        ∨ fetchRoots i.l1Root i.response = .ok (i.l1Root, .noRootsSeen) := by
  rcases fetchRoots_cases i with ⟨failure, hfail⟩ | hsync | ⟨l2Root, hfetch, hsync⟩
  · refine iff_of_false (run_of_fetchRoots_error .default hfail).2.2 ?_
    rw [hfail]
    nofun
  · rw [run_compareRoots hsync]
    exact iff_of_true (by simp [synced]) (.inl hsync)
  · rw [run_compareRoots hfetch, hfetch, hsync]
    cases l2Root with
    | root root =>
        have hne : i.l1Root ≠ root := of_decide_eq_false hsync
        simp [Ne.symm hne]
    | noRootsSeen => simp

end PollInputs

/-- **When the two functions agree**: the poller submits exactly when L1 has a
root that L2 reports not to have and the fee is known; `compare_roots` calls
the chains in step exactly when the poller returns without submitting, and
also when L2 has no root yet, which the poller takes for out of step. -/
theorem sync_decisions (i : PollInputs) (feeType : Fee) :
    (i.Submits feeType
        ↔ i.l1Root ≠ 0
          ∧ (ReportsNoRoots i.response
            ∨ ∃ root, ReturnsRoot i.response root ∧ root ≠ 0 ∧ root ≠ i.l1Root)
          ∧ (feeType = .estimate → ∃ fee, i.estimate (intoFelt i.l1Root) = .ok fee))
      ∧ ((i.run StateBridge.compareRoots).2 = some (.ok true)
        ↔ ((i.run (StateBridge.getAndCompareRoots feeType)).2 = some (.ok ())
            ∧ ¬ i.Submits feeType)
          ∨ i.l1Root ≠ 0 ∧ ReportsNoRoots i.response) := by
  refine ⟨(i.submits_iff feeType).trans and_assoc, ?_⟩
  rw [i.ok_without_submitting_iff feeType, i.compareRoots_iff]
  refine or_congr_right ?_
  rw [fetchRoots_eq_ok, getL2RootResult_eq_noRootsSeen]
  simp

/-- L1 has the root `5`, and L2 none yet. -/
def bootstrapInputs : PollInputs :=
  ⟨5, .error (some .noRootsSeen), fun _ => .ok 1, fun _ => .ok ()⟩

/-- The poller submits, and `compare_roots` calls the chains in step. -/
theorem bootstrap_disagrees :
    bootstrapInputs.Submits .default
      ∧ (bootstrapInputs.run StateBridge.compareRoots).2 = some (.ok true) := by
  refine ⟨(bootstrapInputs.submits_iff .default).mpr ⟨⟨by decide, .inl rfl⟩, nofun⟩, ?_⟩
  have hfetch : fetchRoots bootstrapInputs.l1Root bootstrapInputs.response
      = .ok (bootstrapInputs.l1Root, .noRootsSeen) := rfl
  rw [PollInputs.run_compareRoots hfetch]
  rfl

/-! ## The poller of the relay makes the call -/

/-- `p` is what is left of the call where the poller is. -/
def Poller.Runs (feeType : Fee) : Poller → PollTask (Except PollError Unit) → Prop
  | waiting, p => ∃ outcome, p = ret outcome
  | fetching, p => p = (StateBridge.getAndCompareRoots feeType).run
  | estimating _ rootAsFelts, p =>
      feeType = .estimate ∧ p = (StateBridge.propagate feeType rootAsFelts).run
  | propagating _ value, p =>
      p = (mapErr .propagateRoot (pollRequest (.propagateRootWithRetry value))).run
  | exited, p => p = Prog.panic

namespace Relay

variable {feeType : Fee}

/-- Once it has the roots, the poller is where the call is. -/
theorem runs_getAndCompareRoots (feeType : Fee) (s : Relay) (l1Root : U256)
    (l2Root : L2RootResult) :
    ∃ tr p', Performs (StateBridge.afterFetch feeType (.ok (l1Root, l2Root))) tr p'
      ∧ (s.getAndCompareRoots feeType l1Root l2Root).poller.Runs feeType p' := by
  simp only [getAndCompareRoots, StateBridge.afterFetch]
  split
  · exact ⟨[], _, .done _, .ok (), rfl⟩
  · refine ⟨[⟨.cacheInsert l1Root, ()⟩], _, .step (.done _), ?_⟩
    cases feeType with
    | default => rfl
    | noFee => rfl
    | estimate => exact ⟨rfl, rfl⟩

theorem performs_reads {l1Root : U256} {response : L2Response}
    {tr : List (Exchange PollRequest PollResponse)} {p : PollTask (Except PollError Unit)}
    (h : Performs (StateBridge.afterFetch feeType (fetchRoots l1Root response)) tr p) :
    Performs (StateBridge.getAndCompareRoots feeType).run
      (⟨.getL1RootU256, .ok l1Root⟩ :: ⟨.latestRoot, response⟩ :: tr) p := by
  rw [StateBridge.getAndCompareRoots_run]
  exact .step (.step h)

/-- The roots arrive, or the L1 call fails. -/
theorem runs_fetched (feeType : Fee) (s : Relay) (l1Root : Except Failure U256)
    (response : L2Response) (hpoller : s.poller = .fetching) :
    ∃ tr p', Performs (StateBridge.getAndCompareRoots feeType).run tr p'
      ∧ (s.step feeType (.fetched l1Root response)).poller.Runs feeType p' := by
  simp only [step, hpoller]
  cases l1Root with
  | error failure =>
      rw [StateBridge.getAndCompareRoots_run]
      refine ⟨[⟨.getL1RootU256, .error failure⟩], _, .step (.done _), ?_⟩
      cases failure with
      | error display => exact ⟨_, rfl⟩
      | panic message => rfl
  | ok l1Root =>
      simp only [Except.bind]
      cases hfetch : fetchRoots l1Root response with
      | error failure =>
          refine ⟨_, StateBridge.afterFetch feeType (.error failure),
            performs_reads (by rw [hfetch]; exact .done _), ?_⟩
          cases failure with
          | error display => exact ⟨_, rfl⟩
          | panic message => rfl
      | ok roots =>
          obtain ⟨l1Root', l2Root⟩ := roots
          obtain ⟨tr, p', hp, hruns⟩ := runs_getAndCompareRoots feeType s l1Root' l2Root
          exact ⟨_, p', performs_reads (hfetch ▸ hp), hruns⟩

/-- **The poller runs `get_and_compare_roots`**: a step of the relay that does
not start a new call leaves the poller where some requests of the call lead
it. -/
theorem poller_step (s : Relay) (a : Action) {p : PollTask (Except PollError Unit)}
    (h : s.poller.Runs feeType p) (ha : a = .poll → s.poller ≠ .waiting) :
    ∃ tr p', Performs p tr p' ∧ (s.step feeType a).poller.Runs feeType p' := by
  -- a step of another task
  have hsame : (s.step feeType a).poller = s.poller →
      ∃ tr p', Performs p tr p' ∧ (s.step feeType a).poller.Runs feeType p' := by
    intro heq
    exact ⟨[], p, .done p, heq ▸ h⟩
  cases a with
  | elapse duration => exact hsame rfl
  | event event => exact hsame (frame_event feeType s event).1
  | sendAgain => exact hsame rfl
  | giveUp => exact hsame rfl
  | recv => exact hsame rfl
  | estimated outcome => exact hsame rfl
  | propagated outcome => exact hsame rfl
  | poll =>
      apply hsame
      simp only [step]
      split
      · exact absurd ‹_› (ha rfl)
      · rfl
  | fetched l1Root response =>
      cases hpoller : s.poller with
      | fetching =>
          rw [hpoller] at h
          obtain rfl : p = (StateBridge.getAndCompareRoots feeType).run := h
          exact runs_fetched feeType s l1Root response hpoller
      | _ => exact hsame (by simp only [step, hpoller])
  | pollEstimated outcome =>
      cases hpoller : s.poller with
      | estimating l1Root rootAsFelts =>
          rw [hpoller] at h
          obtain ⟨rfl, rfl⟩ := h
          simp only [step, hpoller]
          refine ⟨[⟨.estimateMessagingFee rootAsFelts, outcome⟩], _, .step (.done _), ?_⟩
          cases outcome with
          | ok overallFee => rfl
          | error e => exact ⟨_, rfl⟩
      | _ => exact hsame (by simp only [step, hpoller])
  | pollPropagated outcome =>
      cases hpoller : s.poller with
      | propagating l1Root value =>
          rw [hpoller] at h
          obtain rfl := h
          simp only [step, hpoller]
          refine ⟨[⟨.propagateRootWithRetry value, outcome⟩], _, .step (.done _), ?_⟩
          cases outcome <;> exact ⟨_, rfl⟩
      | _ => exact hsame (by simp only [step, hpoller])

end Relay

end WorldIDBridge.Service
