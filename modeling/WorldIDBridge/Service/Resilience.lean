import WorldIDBridge.Lib.Outcome
import WorldIDBridge.Service.Success

/-!
# When the nodes fail

Each step of `propagate_root` can fail, in six different ways. The retry loop
is there for failures of the nodes: an error before the broadcast is retried
twice. This module says which answers of the nodes it does not survive.
-/

namespace WorldIDBridge.Service

open Prog

/-! ## Reading a run -/

/-- An attempt begins with the fees. -/
def beginsAttempt : Exchange Request Response → Bool
  | ⟨.estimateEip1559Fees, _⟩ => true
  | _ => false

/-- The attempts of a run. -/
def attempts (tr : Trace) : Nat := tr.countP beginsAttempt

/-- An RPC step before the broadcast that failed. -/
def transientFailure : Exchange Request Response → Bool
  | ⟨.estimateEip1559Fees, .error _⟩ => true
  | ⟨.getTransactionCount _, .error _⟩ => true
  | ⟨.fillTransaction _, .error _⟩ => true
  | ⟨.call _, .error _⟩ => true
  | _ => false

/-- A receipt whose gas is no `u64`. -/
def gasTooBig (receipt : TransactionReceipt) : Bool :=
  match receipt.gasUsed with
  | some gasUsed => decide (2 ^ 64 ≤ gasUsed.toNat)
  | none => false

/-- An answer the code unwraps and cannot. -/
def fatal : Exchange Request Response → Bool
  | ⟨.getTransactionCount _, .error _⟩ => true
  | ⟨.awaitReceipt _ _, .ok (some receipt)⟩ => gasTooBig receipt
  | _ => false

/-- The node fills in the gas, and 150 times that fits in a word. -/
def Fills : (q : Request) → Response q → Prop
  | .fillTransaction _, .ok gas => ∃ g, gas = some g ∧ g.toNat * 150 < 2 ^ 256
  | _, _ => True

/-! ## The monitor of the retries -/

inductive Stage where
  | running
  /-- A failure is to be retried, after a delay. -/
  | mustSleep
  | mustStart
  deriving DecidableEq, Repr

/-- What a run has come to. -/
structure Watch where
  attempts : Nat
  stage : Stage
  fatal : Bool
  deriving DecidableEq, Repr

/-- The stage after an RPC step of an attempt: a failure is retried while there
are retries left. -/
def stageAfter (attempts : Nat) (failed : Bool) : Stage :=
  if failed = true ∧ attempts < 3 then .mustSleep else .running

def Watch.next (s : Watch) (x : Exchange Request Response) : Watch :=
  let n := if beginsAttempt x then s.attempts + 1 else s.attempts
  { attempts := n
    stage := match x with
      | ⟨.sleep _, _⟩ => if s.stage = .mustSleep then .mustStart else s.stage
      | x => stageAfter n (transientFailure x)
    fatal := s.fatal || Service.fatal x }

/-- The monitor asks that nothing follows a fatal answer, that there are three
attempts at most, and that a transient failure is followed by a delay and
another attempt as long as there is one left. -/
def retries : Monitor Request Response Watch where
  allows s q := s.fatal = false
    ∧ (s.stage = .mustSleep → ∃ secs, q = .sleep secs)
    ∧ (s.stage = .mustStart → q = .estimateEip1559Fees)
    ∧ (q = .estimateEip1559Fees → s.attempts < 3)
  next s q a := s.next ⟨q, a⟩

/-- An attempt may begin: it is the next after `k` of them. -/
structure Ready (k : Nat) (s : Watch) : Prop where
  attempts : s.attempts = k
  stage : s.stage ≠ .mustSleep
  fatal : s.fatal = false

/-- The outcome of a part of the attempt `k`: a panic is due to a fatal
answer; an error leaves the attempt as it was, unless it is one to retry. -/
def Attempted (k : Nat) {ε α : Type} (retried : ε → Prop) :
    Option (Except ε α) → Watch → Prop
  | none, s => s.fatal = true
  | some (.ok _), s => s = ⟨k, .running, false⟩
  | some (.error e), s => s = ⟨k, .running, false⟩ ∨ s = ⟨k, stageAfter k true, false⟩ ∧ retried e

/-- An attempt under way may ask for anything but the fees. -/
theorem allows_of_running {k : Nat} {q : Request} (h : q ≠ .estimateEip1559Fees) :
    retries.allows ⟨k, .running, false⟩ q := by
  refine ⟨rfl, ?_, ?_, fun hq => absurd hq h⟩
  · intro hstage
    cases hstage
  · intro hstage
    cases hstage

/-- Filling and simulating the transaction. -/
theorem fillAndSimulate_outcome (config : Config) (value : U256) {k : Nat} {s : Watch}
    (hready : Ready k s) (hk : k < 3) :
    (fillAndSimulateEip1559Transaction propagateRootCalldata config.l1BridgeAddress
        config.walletAddress config.chainId value).run.outcome retries Fills
      (fun o s' => Attempted (k + 1) (fun e => ∃ m, e = .middlewareError m) o s'
        ∧ ∀ tx, o = some (.ok tx) → tx.gas.isSome) s := by
  obtain ⟨n, stage, dead⟩ := s
  obtain ⟨rfl, hstage, rfl⟩ := hready
  have herror : ∀ (e : TransactionError) (tx : Eip1559Transaction),
      some (Except.error e) = some (Except.ok tx) → tx.gas.isSome := by
    intro e tx h
    cases h
  simp only [fillAndSimulateEip1559Transaction, outcome_mapErr_bind, outcome_lift_bind]
  refine ⟨⟨rfl, fun h => absurd h hstage, fun _ => rfl, fun _ => hk⟩, fun fees _ => ?_⟩
  cases fees with
  | error e => exact ⟨.inr ⟨rfl, e, rfl⟩, herror _⟩
  | ok fees =>
      refine ⟨allows_of_running (by simp), fun count _ => ?_⟩
      cases count with
      | error e =>
          refine ⟨rfl, ?_⟩
          intro tx htx
          cases htx
      | ok nonce =>
          refine ⟨allows_of_running (by simp), fun filled hfills => ?_⟩
          cases filled with
          | error e => exact ⟨.inr ⟨rfl, e, rfl⟩, herror _⟩
          | ok gas =>
              -- the node filled in the gas, and the product fits
              obtain ⟨g, rfl, hfits⟩ := hfills
              have hproduct : mulU256? g 150 = some (g * 150) := if_pos hfits
              simp only [outcome, outcome_unwrap, hproduct]
              refine ⟨allows_of_running (by simp), fun simulated _ => ?_⟩
              cases simulated with
              | error e => exact ⟨.inr ⟨rfl, e, rfl⟩, herror _⟩
              | ok _ =>
                  refine ⟨rfl, ?_⟩
                  intro tx htx
                  cases htx
                  rfl

/-- Signing, sending and waiting: nothing here is retried for its own sake, and
nothing panics. -/
theorem signAndSendTransaction_outcome (tx : Eip1559Transaction) (blockConfirmations k : Nat) :
    (signAndSendTransaction tx blockConfirmations).run.outcome retries Fills
      (fun o s' => ∃ r, o = some r
        ∧ s' = ⟨k, .running, r.toOption.any gasTooBig⟩) ⟨k, .running, false⟩ := by
  simp only [signAndSendTransaction, outcome_mapErr_bind, outcome_lift_bind]
  refine ⟨allows_of_running (by simp), fun signed _ => ?_⟩
  cases signed with
  | error e => exact ⟨_, rfl, rfl⟩
  | ok _ =>
      refine ⟨allows_of_running (by simp), fun sent _ => ?_⟩
      cases sent with
      | error e =>
          simp only [outcome]
          split <;> exact ⟨_, rfl, rfl⟩
      | ok _ =>
          simp only [outcome, waitForTxReceipt, outcome_mapErr_bind]
          refine ⟨allows_of_running (by simp), fun awaited _ => ?_⟩
          cases awaited with
          | error e => exact ⟨_, rfl, rfl⟩
          | ok receipt => cases receipt <;> exact ⟨_, rfl, rfl⟩

/-- One attempt. -/
theorem propagateRoot_outcome (config : Config) (value : U256) {k : Nat} {s : Watch}
    (hready : Ready k s) (hk : k < 3) :
    (propagateRoot config value).run.outcome retries Fills
      (Attempted (k + 1) fun err => isFastFail err = true) s := by
  simp only [propagateRoot, outcome_mapErr_bind, outcome_lift_bind, outcome_unwrap]
  have hfill := fillAndSimulate_outcome config value hready hk
  refine outcome_mono hfill fun filled s₁ h => ?_
  obtain ⟨hattempt, hgas⟩ := h
  cases filled with
  | none => exact hattempt
  | some filled =>
      cases filled with
      | error e =>
          cases hattempt with
          | inl hs => exact .inl hs
          | inr hs =>
              obtain ⟨hs, m, rfl⟩ := hs
              exact .inr ⟨hs, rfl⟩
      | ok tx =>
          obtain rfl : s₁ = ⟨k + 1, .running, false⟩ := hattempt
          obtain ⟨gasLimit, hgasLimit⟩ := Option.isSome_iff_exists.mp (hgas tx rfl)
          simp only [hgasLimit]
          split
          · simp only [outcome_mapErr_bind]
            have hsend := signAndSendTransaction_outcome tx config.blockConfirmations (k + 1)
            refine outcome_mono hsend fun o s₂ h => ?_
            obtain ⟨sent, rfl, rfl⟩ := h
            cases sent with
            | error e => exact .inl rfl
            | ok receipt =>
                obtain ⟨status, gasUsed⟩ := receipt
                cases gasUsed with
                | none => rfl
                | some gasUsed =>
                    simp only [outcome_lift_bind, outcome_unwrap, asU64?]
                    by_cases hfits : gasUsed.toNat < 2 ^ 64
                    · have hsmall : gasTooBig ⟨status, some gasUsed⟩ = false :=
                        decide_eq_false (Nat.not_le.mpr hfits)
                      rw [if_pos hfits]
                      show Watch.mk (k + 1) .running (gasTooBig ⟨status, some gasUsed⟩) = _
                      rw [hsmall]
                    · rw [if_neg hfits]
                      exact decide_eq_true (Nat.not_lt.mp hfits)
          · exact .inl rfl

/-- After an attempt that failed, a retry may begin with a delay. -/
theorem Attempted.retry {k : Nat} {ε α : Type} {retried : ε → Prop} {e : ε} {s : Watch}
    (h : Attempted (α := α) k retried (some (.error e)) s) :
    s.attempts = k ∧ s.stage ≠ .mustStart ∧ s.fatal = false := by
  cases h with
  | inl hs =>
      subst hs
      exact ⟨rfl, nofun, rfl⟩
  | inr hs =>
      obtain ⟨rfl, -⟩ := hs
      refine ⟨rfl, ?_, rfl⟩
      show stageAfter k true ≠ .mustStart
      rw [stageAfter]
      split <;> nofun

theorem ready_of_sleep (secs : Nat) {k : Nat} {s : Watch} (hcount : s.attempts = k)
    (hfatal : s.fatal = false) : Ready k (retries.next s (.sleep secs) ()) where
  attempts := hcount
  stage := by
    show (if s.stage = .mustSleep then Stage.mustStart else s.stage) ≠ .mustSleep
    split
    · nofun
    · assumption
  fatal := by
    show (s.fatal || false) = false
    rw [hfatal, Bool.or_false]

/-- What the outcome of the retry loop has to be: a panic is due to a fatal
answer, and no retry is owed at a return. -/
def Settled : Option (Except StateBridgeError Unit) → Watch → Prop
  | some _, s => s.attempts ≤ 3 ∧ s.stage = .running ∧ s.fatal = false
  | none, s => s.fatal = true

/-- The retry loop. The induction is on the delays that are left. -/
theorem retryLoop_outcome (config : Config) (value : U256) {delays : List Nat} {k : Nat}
    {s : Watch} (hready : Ready k s) (hdelays : k + delays.length = 2) :
    (retryLoop config value delays).outcome retries Fills Settled s := by
  have hattempt := propagateRoot_outcome config value hready (by omega)
  induction delays generalizing k s with
  | nil =>
      obtain rfl : k = 2 := hdelays
      refine outcome_mono hattempt fun o s' h => ?_
      cases o with
      | none => exact h
      | some r =>
          cases r with
          | ok _ =>
              obtain rfl : s' = ⟨3, .running, false⟩ := h
              exact ⟨le_rfl, rfl, rfl⟩
          | error err =>
              -- there are no retries left, so none is owed
              obtain rfl : s' = ⟨3, .running, false⟩ := by
                cases h with
                | inl hs => exact hs
                | inr hs => exact hs.1
              exact ⟨le_rfl, rfl, rfl⟩
  | cons delay delays ih =>
      simp only [List.length_cons] at hdelays
      rw [retryLoop, outcome_bind]
      refine outcome_mono hattempt fun o s' h => ?_
      cases o with
      | none => exact h
      | some r =>
          cases r with
          | ok _ =>
              obtain rfl : s' = ⟨k + 1, .running, false⟩ := h
              exact ⟨Nat.succ_le_succ (by omega), rfl, rfl⟩
          | error err =>
              simp only
              by_cases hfast : isFastFail err = true
              · rw [if_pos hfast]
                obtain ⟨hcount, hstage, hfatal⟩ := h.retry
                refine ⟨⟨hfatal, fun _ => ⟨delay, rfl⟩, fun h => absurd h hstage, nofun⟩, fun _ _ => ?_⟩
                have hnext : Ready (k + 1) (retries.next s' (.sleep delay) ()) :=
                  ready_of_sleep delay hcount hfatal
                exact ih hnext (by omega) (propagateRoot_outcome config value hnext (by omega))
              · rw [if_neg hfast]
                cases h with
                | inl hs =>
                    subst hs
                    exact ⟨Nat.succ_le_succ (by omega), rfl, rfl⟩
                | inr hs => exact absurd hs.2 hfast

/-! ## The number of requests -/

theorem fillAndSimulate_within (config : Config) (value : U256) :
    Within 4 (fillAndSimulateEip1559Transaction propagateRootCalldata config.l1BridgeAddress
      config.walletAddress config.chainId value).run := by
  have hask : ∀ q, Within 1 (request q) := within_ask
  refine (within_mapErr (hask _)).run_bind (n := 3) fun fees => ?_
  refine (within_lift ((hask _).bind fun _ => within_unwrap)).run_bind (n := 2) fun nonce => ?_
  refine (within_mapErr (hask _)).run_bind (n := 1) fun filled => ?_
  refine (within_lift within_unwrap).run_bind (n := 1) fun gas => ?_
  refine (within_lift within_unwrap).run_bind (n := 1) fun product => ?_
  exact (within_mapErr (hask _)).run_bind (n := 0) fun _ => within_ret

theorem signAndSendTransaction_within (tx : Eip1559Transaction) (blockConfirmations : Nat) :
    Within 3 (signAndSendTransaction tx blockConfirmations).run := by
  have hask : ∀ q, Within 1 (request q) := within_ask
  refine (within_mapErr (hask _)).run_bind (n := 2) fun _ => ?_
  refine (within_lift (hask _)).run_bind (n := 1) fun sent => ?_
  cases sent with
  | error e =>
      simp only
      split <;> trivial
  | ok _ =>
      refine (within_mapErr (hask _)).run_bind (n := 0) fun awaited => ?_
      cases awaited <;> trivial

theorem propagateRoot_within (config : Config) (value : U256) :
    Within 7 (propagateRoot config value).run := by
  refine (within_mapErr (fillAndSimulate_within config value)).run_bind (n := 3) fun tx => ?_
  refine (within_lift within_unwrap).run_bind (n := 3) fun gasLimit => ?_
  split
  · refine (within_mapErr (signAndSendTransaction_within tx _)).run_bind (n := 0) fun receipt => ?_
    split
    · exact (within_lift within_unwrap).run_bind (n := 0) fun _ => within_ret
    · exact within_ret
  · exact within_ret

theorem retryLoop_within (config : Config) (value : U256) (delays : List Nat) :
    Within (7 + 8 * delays.length) (retryLoop config value delays) := by
  induction delays with
  | nil => exact propagateRoot_within config value
  | cons delay delays ih =>
      have hrest : Within (1 + (7 + 8 * delays.length))
          ((request (.sleep delay)).bind fun _ => retryLoop config value delays) :=
        Within.bind (within_ask _) fun _ => ih
      have h : Within (7 + (1 + (7 + 8 * delays.length))) (retryLoop config value (delay :: delays)) := by
        refine (propagateRoot_within config value).bind fun r => ?_
        cases r with
        | ok _ => exact within_ret
        | error err =>
            simp only
            split
            · exact hrest
            · exact within_ret
      refine h.mono ?_
      rw [List.length_cons]
      omega

/-! ## Runs of the retry loop -/

@[simp]
theorem after_attempts (s : Watch) (tr : Trace) :
    (retries.after s tr).attempts = s.attempts + attempts tr := by
  induction tr generalizing s with
  | nil => rfl
  | cons x tr ih =>
      show (retries.after (s.next x) tr).attempts = _
      have hnext : (s.next x).attempts = if beginsAttempt x then s.attempts + 1 else s.attempts := rfl
      rw [ih, hnext, attempts, attempts, List.countP_cons]
      split <;> omega

@[simp]
theorem after_fatal (s : Watch) (tr : Trace) :
    (retries.after s tr).fatal = (s.fatal || tr.any fatal) := by
  induction tr generalizing s with
  | nil => exact (Bool.or_false _).symm
  | cons x tr ih =>
      show (retries.after (s.next x) tr).fatal = _
      rw [ih, List.any_cons, ← Bool.or_assoc]
      rfl

theorem stage_next_of_failure {s : Watch} {x : Exchange Request Response}
    (h : transientFailure x = true) : (s.next x).stage = stageAfter (s.next x).attempts true := by
  obtain ⟨q, a⟩ := x
  cases q
  case sleep => cases h
  all_goals exact congrArg (stageAfter _) h

/-- The monitor at the beginning of a call. -/
def watch : Watch := ⟨0, .running, false⟩

theorem stage_after_failure {before : Trace} {x : Exchange Request Response}
    (hfailed : transientFailure x = true) (hleft : attempts (before ++ [x]) < 3) :
    (retries.after watch (before ++ [x])).stage = .mustSleep := by
  have hcount : (retries.after watch (before ++ [x])).attempts = attempts (before ++ [x]) :=
    (after_attempts watch _).trans (Nat.zero_add _)
  rw [Monitor.after, List.foldl_append] at hcount ⊢
  show (Watch.next _ x).stage = _
  rw [stage_next_of_failure hfailed]
  exact if_pos ⟨rfl, hcount.trans_lt hleft⟩

/-- The call has returned, or its task is dead. -/
def Finished (p : Task (Except StateBridgeError Unit)) : Prop :=
  p = .panic ∨ ∃ r, p = ret r

/-- What the retry loop is for: it returns, after at most three attempts, and
follows a transient failure with a delay and another attempt as long as it has
one left. -/
structure Robust (tr : Trace) (p : Task (Except StateBridgeError Unit)) : Prop where
  returns : ∃ r, p = ret r
  attempts : attempts tr ≤ 3
  retried : ∀ before x rest, tr = before ++ x :: rest → transientFailure x = true →
    Service.attempts (before ++ [x]) < 3 →
    ∃ secs fees rest', rest = ⟨.sleep secs, ()⟩ :: ⟨.estimateEip1559Fees, fees⟩ :: rest'

section

variable {config : Config} {value : U256} {tr : Trace} {p : Task (Except StateBridgeError Unit)}

theorem propagateRootWithRetry_outcome (config : Config) (value : U256) :
    (propagateRootWithRetry config value).outcome retries Fills Settled watch :=
  retryLoop_outcome config value ⟨rfl, nofun, rfl⟩ rfl

/-- A call that returns has retried what it could. -/
theorem retried_of_returns {r : Except StateBridgeError Unit}
    (hrun : Performs (propagateRootWithRetry config value) tr (ret r)) (hrely : Relied Fills tr)
    {before rest : Trace} {x : Exchange Request Response} (htr : tr = before ++ x :: rest)
    (hfailed : transientFailure x = true) (hleft : attempts (before ++ [x]) < 3) :
    ∃ secs fees rest', rest = ⟨.sleep secs, ()⟩ :: ⟨.estimateEip1559Fees, fees⟩ :: rest' := by
  rw [List.append_cons] at htr
  subst htr
  obtain ⟨q, hbefore, hrest⟩ := hrun.split
  have hrely₁ : Relied Fills (before ++ [x]) := fun y hy => hrely y (List.mem_append_left _ hy)
  have hrely₂ : Relied Fills rest := fun y hy => hrely y (List.mem_append_right _ hy)
  have hq := hbefore.outcome hrely₁ (propagateRootWithRetry_outcome config value)
  have hstage := stage_after_failure hfailed hleft
  -- the failure is followed by a delay
  have hpending : ∀ a, ¬ Settled (some a) (retries.after watch (before ++ [x])) := by
    intro a h
    rw [h.2.1] at hstage
    cases hstage
  obtain ⟨y, rest₁, q₁, rfl, hallowed, hrest₁, hq₁⟩ := hrest.forced hrely₂ hq rfl hpending
  obtain ⟨secs, hsleep⟩ := hallowed.2.1 hstage
  obtain ⟨_, a⟩ := y
  subst hsleep
  -- and the delay by the fees
  have hstage₁ : (retries.next (retries.after watch (before ++ [x])) (.sleep secs) a).stage
      = .mustStart := if_pos hstage
  have hpending₁ : ∀ a', ¬ Settled (some a')
      (retries.next (retries.after watch (before ++ [x])) (.sleep secs) a) := by
    intro a' h
    rw [h.2.1] at hstage₁
    cases hstage₁
  have hrely₃ : Relied Fills rest₁ := fun y hy => hrely₂ y (List.mem_cons_of_mem _ hy)
  obtain ⟨y, rest₂, q₂, rfl, hallowed₁, -, -⟩ := hrest₁.forced hrely₃ hq₁ rfl hpending₁
  obtain ⟨_, fees⟩ := y
  have hfees := hallowed₁.2.2.1 hstage₁
  subst hfees
  exact ⟨secs, fees, rest₂, rfl⟩

/-- **What the retry loop survives**: every call ends after at most 23
requests, and one that has ended was robust if and only if no transaction
count was answered with an error and no receipt with gas beyond a `u64`. -/
theorem propagateRootWithRetry_robust_iff
    (hrun : Performs (propagateRootWithRetry config value) tr p) (hrely : Relied Fills tr) :
    tr.length ≤ 23 ∧ (Finished p → (Robust tr p ↔ ∀ x ∈ tr, fatal x = false)) := by
  refine ⟨hrun.length_le (retryLoop_within config value retryDelays), fun hfinished => ?_⟩
  have houtcome := hrun.outcome hrely (propagateRootWithRetry_outcome config value)
  have hfatal : (retries.after watch tr).fatal = tr.any fatal := after_fatal watch tr
  have hnone : (tr.any fatal = false) ↔ ∀ x ∈ tr, fatal x = false := by simp
  rw [← hnone, ← hfatal]
  cases hfinished with
  | inl hpanic =>
      subst hpanic
      have hdead : (retries.after watch tr).fatal = true := houtcome
      constructor
      · intro h
        obtain ⟨r, hr⟩ := h.returns
        cases hr
      · intro h
        rw [hdead] at h
        cases h
  | inr hret =>
      obtain ⟨r, rfl⟩ := hret
      obtain ⟨hcount, -, halive⟩ : Settled (some r) (retries.after watch tr) := houtcome
      refine iff_of_true ⟨⟨r, rfl⟩, ?_, fun before x rest htr => ?_⟩ halive
      · rw [after_attempts] at hcount
        exact (Nat.zero_add _).symm.le.trans hcount
      · exact retried_of_returns hrun hrely htr

end

/-! ## A node that does not know the nonce -/

/-- The fees failed once, and the second attempt went through. -/
def retriedTrace : Trace :=
  [⟨.estimateEip1559Fees, .error ⟨"timeout"⟩⟩, ⟨.sleep 1, ()⟩] ++ sampleTrace 1

/-- A failed estimate of the fees is retried. -/
theorem propagateRootWithRetry_robust_iff_sample : Robust retriedTrace (ret (.ok ())) := by
  have hrun : Performs (propagateRootWithRetry sampleConfig 10) retriedTrace (ret (.ok ())) :=
    .of_replay? rfl
  have hrely : Relied Fills retriedTrace := by
    simp only [Relied, retriedTrace, sampleTrace, List.cons_append, List.nil_append,
      List.forall_mem_cons, List.not_mem_nil, false_imp_iff, implies_true]
    exact ⟨trivial, trivial, trivial, trivial, ⟨60000, rfl, by decide⟩, trivial, trivial, trivial,
      trivial, trivial⟩
  exact ((propagateRootWithRetry_robust_iff hrun hrely).2 (.inr ⟨_, rfl⟩)).mpr (by decide)

/-- The fees, and no transaction count. -/
def deadTrace : Trace :=
  [⟨.estimateEip1559Fees, .ok (2, 1)⟩, ⟨.getTransactionCount 9, .error ⟨"timeout"⟩⟩]

/-- The same failure of the transaction count is the end of the task. -/
theorem failed_transaction_count_panics :
    Performs (propagateRootWithRetry sampleConfig 10) deadTrace .panic
      ∧ Relied Fills deadTrace ∧ ¬ Robust deadTrace .panic := by
  refine ⟨.of_replay? rfl, ?_, fun h => ?_⟩
  · simp only [Relied, deadTrace, List.forall_mem_cons, List.not_mem_nil, false_imp_iff,
      implies_true]
    exact ⟨trivial, trivial, trivial⟩
  · obtain ⟨r, hr⟩ := h.returns
    cases hr

end WorldIDBridge.Service
