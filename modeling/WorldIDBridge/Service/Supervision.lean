import WorldIDBridge.Service.Decoding
import WorldIDBridge.Service.Process
import WorldIDBridge.Service.Resilience

/-!
# What ends the process

Nothing restarts a task. An error ends its task at most, and the process goes
on without it; a panic ends the process. The module says which answers of the
nodes make a task panic, and that these are all: a transaction count that
fails, a filled transaction without gas or with too much of it, a receipt
with gas beyond a `u64`, felts of L2 that do not join to a word, a balance or
a gas price beyond a `u128`.
-/

namespace WorldIDBridge.Service

open Prog TransitionRun

/-! ## The answers a call panics on -/

/-- The node filled in no gas, or too much to multiply. -/
def unfillable : Exchange Request Response → Bool
  | ⟨.fillTransaction _, .ok none⟩ => true
  | ⟨.fillTransaction _, .ok (some gas)⟩ => decide (2 ^ 256 ≤ gas.toNat * 150)
  | _ => false

/-- An answer that cannot be unwrapped. -/
def unwrapFails (x : Exchange Request Response) : Bool := fatal x || unfillable x

variable {config : Config} {value : U256}

theorem mulU256?_isNone (gas : U256) :
    (mulU256? gas 150).isNone = decide (2 ^ 256 ≤ gas.toNat * 150) := by
  unfold mulU256?
  have hfactor : (150 : U256).toNat = 150 := rfl
  rw [hfactor]
  by_cases h : gas.toNat * 150 < 2 ^ 256
  · rw [if_pos h]
    exact (decide_eq_false (by omega)).symm
  · rw [if_neg h]
    exact (decide_eq_true (by omega)).symm

theorem asU64?_isNone (gasUsed : U256) :
    (asU64? gasUsed).isNone = decide (2 ^ 64 ≤ gasUsed.toNat) := by
  unfold asU64?
  by_cases h : gasUsed.toNat < 2 ^ 64
  · rw [if_pos h]
    exact (decide_eq_false (by omega)).symm
  · rw [if_neg h]
    exact (decide_eq_true (by omega)).symm

/-- Filling and simulating: what it makes has its gas. -/
theorem fillAndSimulate_unwraps :
    (fillAndSimulateEip1559Transaction propagateRootCalldata config.l1BridgeAddress
        config.walletAddress config.chainId value).run.outcome (alarm unwrapFails)
      (fun _ _ => True)
      (fun o s => s = o.isNone ∧ ∀ tx, o = some (.ok tx) → tx.gas.isSome) false := by
  have herror : ∀ (e : TransactionError) (tx : Eip1559Transaction),
      some (Except.error e) = some (Except.ok tx) → tx.gas.isSome := by
    intro e tx h
    cases h
  have hnone : ∀ tx : Eip1559Transaction,
      (none : Option (Except TransactionError _)) = some (.ok tx) → tx.gas.isSome := by
    intro tx h
    cases h
  simp only [fillAndSimulateEip1559Transaction, outcome_mapErr_bind, outcome_lift_bind]
  refine ⟨rfl, fun fees _ => ?_⟩
  cases fees with
  | error e => exact ⟨rfl, herror _⟩
  | ok fees =>
      refine ⟨rfl, fun count _ => ?_⟩
      cases count with
      | error e => exact ⟨rfl, hnone⟩
      | ok nonce =>
          refine ⟨rfl, fun filled _ => ?_⟩
          cases filled with
          | error e => exact ⟨rfl, herror _⟩
          | ok gas =>
              cases gas with
              | none => exact ⟨rfl, hnone⟩
              | some gas =>
                  -- the alarm is raised exactly if the product does not fit
                  have halarm : ∀ tx, unwrapFails ⟨.fillTransaction tx, .ok (some gas)⟩
                      = (mulU256? gas 150).isNone := fun tx => (mulU256?_isNone gas).symm
                  simp only [outcome, outcome_unwrap, alarm_next, halarm]
                  cases mulU256? gas 150 with
                  | none => exact ⟨rfl, hnone⟩
                  | some product =>
                      refine ⟨rfl, fun simulated _ => ?_⟩
                      cases simulated with
                      | error e => exact ⟨rfl, herror _⟩
                      | ok _ =>
                          refine ⟨rfl, ?_⟩
                          intro tx htx
                          cases htx
                          rfl

/-- Signing, sending and waiting do not panic; the gas of the receipt is still
to be unwrapped. -/
theorem signAndSendTransaction_unwraps (tx : Eip1559Transaction) (blockConfirmations : Nat) :
    (signAndSendTransaction tx blockConfirmations).run.outcome (alarm unwrapFails)
      (fun _ _ => True)
      (fun o s => ∃ r, o = some r ∧ s = r.toOption.any gasTooBig) false := by
  simp only [signAndSendTransaction, outcome_mapErr_bind, outcome_lift_bind]
  refine ⟨rfl, fun signed _ => ?_⟩
  cases signed with
  | error e => exact ⟨_, rfl, rfl⟩
  | ok _ =>
      refine ⟨rfl, fun sent _ => ?_⟩
      cases sent with
      | error e =>
          simp only [outcome]
          split <;> exact ⟨_, rfl, rfl⟩
      | ok _ =>
          simp only [outcome, waitForTxReceipt, outcome_mapErr_bind]
          refine ⟨rfl, fun awaited _ => ?_⟩
          cases awaited with
          | error e => exact ⟨_, rfl, rfl⟩
          | ok receipt =>
              cases receipt with
              | none => exact ⟨_, rfl, rfl⟩
              | some receipt =>
                  refine ⟨_, rfl, ?_⟩
                  show (gasTooBig receipt || false) = gasTooBig receipt
                  exact Bool.or_false _

theorem propagateRoot_unwraps (config : Config) (value : U256) :
    PanicsOn unwrapFails (propagateRoot config value).run := by
  unfold PanicsOn
  simp only [propagateRoot, outcome_mapErr_bind, outcome_lift_bind, outcome_unwrap]
  refine outcome_mono fillAndSimulate_unwraps fun filled s h => ?_
  obtain ⟨rfl, hgas⟩ := h
  cases filled with
  | none => rfl
  | some filled =>
      cases filled with
      | error e => rfl
      | ok tx =>
          obtain ⟨gasLimit, hgasLimit⟩ := Option.isSome_iff_exists.mp (hgas tx rfl)
          simp only [hgasLimit]
          split
          · simp only [outcome_mapErr_bind]
            have hsend := signAndSendTransaction_unwraps tx config.blockConfirmations
            refine outcome_mono hsend fun o s h => ?_
            obtain ⟨sent, rfl, rfl⟩ := h
            cases sent with
            | error e => rfl
            | ok receipt =>
                obtain ⟨status, gasUsed⟩ := receipt
                cases gasUsed with
                | none => rfl
                | some gasUsed =>
                    simp only [outcome_lift_bind, outcome_unwrap]
                    have hbig := asU64?_isNone gasUsed
                    cases hword : asU64? gasUsed with
                    | none =>
                        rw [hword] at hbig
                        exact hbig.symm
                    | some word =>
                        rw [hword] at hbig
                        exact hbig.symm
          · rfl

/-- Errors are retried or returned, and panics are not held back. -/
theorem retryLoop_unwraps (config : Config) (value : U256) (delays : List Nat) :
    PanicsOn unwrapFails (retryLoop config value delays) := by
  induction delays with
  | nil => exact propagateRoot_unwraps config value
  | cons delay delays ih =>
      rw [retryLoop]
      refine (propagateRoot_unwraps config value).bind fun result => ?_
      cases result with
      | ok _ => exact panicsOn_ret _
      | error err =>
          simp only
          split
          · exact (panicsOn_ask fun _ => rfl).bind fun _ => ih
          · exact panicsOn_ret _

/-! ## The answers the other tasks panic on -/

def Panics {α : Type} (x : Except Failure α) : Prop := ∃ m, x = .error (.panic m)

section

variable {α β : Type}

@[simp] theorem panics_ok (a : α) : ¬ Panics (.ok a) := by
  intro h
  obtain ⟨m, hm⟩ := h
  cases hm

@[simp] theorem panics_error (report : String) :
    ¬ Panics (.error (.error report) : Except _ α) := by
  intro h
  obtain ⟨m, hm⟩ := h
  cases hm

@[simp] theorem panics_panic (m : String) : Panics (.error (.panic m) : Except _ α) := ⟨m, rfl⟩

/-- A sequence panics in its first part, or in what follows it. -/
theorem panics_bind (x : Except Failure α) (f : α → Except Failure β) :
    Panics (x >>= f) ↔ Panics x ∨ ∃ a, x = .ok a ∧ Panics (f a) := by
  cases x with
  | ok a =>
      rw [Checked.ok_bind, or_iff_right (panics_ok a)]
      simp
  | error e =>
      rw [Checked.error_bind]
      cases e <;> simp

theorem panics_failIf (c : Prop) [Decidable c] (report : String) :
    ¬ Panics (Checked.failIf c (.error report)) := by
  unfold Checked.failIf
  split <;> simp

end

/-- The two felts of the answer do not join to a word. -/
def Overflows : L2Response → Prop
  | .ok [low, high] => 2 ^ 256 ≤ low.val + high.val % 2 ^ 128 * 2 ^ 128
  | _ => False

theorem feltsToU256_panics (values : List Felt252) :
    Panics (Utils.feltsToU256 values) ↔ Overflows (.ok values) := by
  by_cases hlen : values.length = 2
  · obtain ⟨low, high, rfl⟩ := List.length_eq_two.mp hlen
    rw [Utils.feltsToU256_pair]
    show _ ↔ 2 ^ 256 ≤ low.val + high.val % 2 ^ 128 * 2 ^ 128
    split <;> simp <;> omega
  · rw [Utils.feltsToU256_length hlen]
    refine iff_of_false (panics_error _) fun h => ?_
    match values, h with
    | [_, _], _ => exact hlen rfl

/-- Reading the roots panics only on the felts of L2. -/
theorem fetchRoots_panics (l1Root : U256) (response : L2Response) :
    Panics (fetchRoots l1Root response) ↔ Overflows response := by
  have hread : Panics (fetchRoots l1Root response) ↔ Panics (getL2RootResult response) := by
    unfold fetchRoots
    simp [panics_bind, panics_failIf]
  rw [hread]
  cases response with
  | error e =>
      refine iff_of_false ?_ id
      unfold getL2RootResult
      simp only
      split <;> simp
  | ok values =>
      rw [← feltsToU256_panics, getL2RootResult]
      simp [panics_bind]

theorem asU128_panics (v : U256) : Panics (Utils.asU128 v) ↔ 2 ^ 128 ≤ v.toNat := by
  unfold Utils.asU128
  split <;> simp <;> omega

/-- A gas price is converted only if there is one. -/
theorem pollBalances_panics (balance gasPrice : Except String U256) :
    Panics (pollBalances balance gasPrice)
      ↔ ∃ b, balance = .ok b
          ∧ (2 ^ 128 ≤ b.toNat ∨ ∃ g, gasPrice = .ok g ∧ 2 ^ 128 ≤ g.toNat) := by
  unfold pollBalances
  cases balance with
  | error e =>
      rw [panics_bind]
      simp [Except.mapError]
  | ok b =>
      simp only [Except.mapError, Checked.ok_bind, panics_bind, asU128_panics, Except.ok.injEq,
        exists_eq_left']
      by_cases hbig : 2 ^ 128 ≤ b.toNat
      · simp only [hbig, true_or]
      · -- the balance is converted
        have hb : Utils.asU128 b = .ok (b.setWidth 128) := if_pos (Nat.not_le.mp hbig)
        rw [or_iff_right hbig, or_iff_right hbig, hb]
        cases gasPrice with
        | error e => simp
        | ok g => simp [panics_bind, asU128_panics]

/-! ## The process -/

namespace Process

variable {feeType : Fee} {s : Process}

/-- The step of a task, or the answer it gets, makes it panic. -/
def Kills (config : Config) (s : Process) : Action → Prop
  | .task (.fetched l1Root response) => s.relay.poller = .fetching
      ∧ (Panics l1Root ∨ (∃ root, l1Root = .ok root) ∧ Overflows response)
  | .reply t x => (∃ prog prog', Answered config s t x prog prog') ∧ unwrapFails x = true
  | .balances balance gasPrice => ∃ b, balance = .ok b
      ∧ (2 ^ 128 ≤ b.toNat ∨ ∃ g, gasPrice = .ok g ∧ 2 ^ 128 ≤ g.toNat)
  | _ => False

theorem panicked_iff {c : Option (Task (Except StateBridgeError Unit))} :
    panicked c = true ↔ c = some .panic := by
  unfold panicked
  split
  · exact iff_of_true rfl rfl
  · rename_i h
    refine iff_of_false Bool.false_ne_true ?_
    intro hc
    exact h hc

theorem doomed_iff : s.doomed = true ↔
    s.monitorPanicked = true ∨ s.relay.poller = .exited
      ∨ ∃ t, s.submitters.calls t = some .panic := by
  have hcalls : (∃ t, s.submitters.calls t = some .panic)
      ↔ s.submitters.calls .executor = some .panic ∨ s.submitters.calls .poller = some .panic := by
    constructor
    · intro h
      obtain ⟨t, ht⟩ := h
      cases t with
      | executor => exact .inl ht
      | poller => exact .inr ht
    · intro h
      cases h with
      | inl h => exact ⟨.executor, h⟩
      | inr h => exact ⟨.poller, h⟩
  simp only [doomed, Bool.or_eq_true, decide_eq_true_eq, panicked_iff, hcalls, or_assoc]

/-! ### One step -/

/-- A poller that panicked does not come back. -/
theorem poller_stays_exited (s : Relay) (a : Relay.Action) (h : s.poller = .exited) :
    (s.step feeType a).poller = .exited := by
  cases a with
  | event event => exact (Relay.frame_event feeType s event).1.trans h
  | poll => simp only [Relay.step, h]
  | fetched l1Root response => simp only [Relay.step, h]
  | pollEstimated outcome => simp only [Relay.step, h]
  | pollPropagated outcome => simp only [Relay.step, h]
  | _ => exact h

theorem poller_getAndCompareRoots (feeType : Fee) (s : Relay) (l1Root : U256)
    (l2Root : L2RootResult) : (s.getAndCompareRoots feeType l1Root l2Root).poller ≠ .exited := by
  unfold Relay.getAndCompareRoots
  split
  · simp
  · cases feeType <;> simp [Relay.pollAttempt]

/-- The answers to a poll that make the poller panic. -/
theorem fetched_exits_iff (s : Relay) (l1Root : Except Failure U256) (response : L2Response)
    (h : s.poller ≠ .exited) : (s.step feeType (.fetched l1Root response)).poller = .exited
      ↔ s.poller = .fetching
        ∧ (Panics l1Root ∨ (∃ root, l1Root = .ok root) ∧ Overflows response) := by
  have hpanics : Panics (l1Root.bind fun root => fetchRoots root response)
      ↔ Panics l1Root ∨ (∃ root, l1Root = .ok root) ∧ Overflows response := by
    show Panics (l1Root >>= fun root => fetchRoots root response) ↔ _
    simp only [panics_bind, fetchRoots_panics, exists_and_right]
  rw [← hpanics]
  simp only [Relay.step]
  split
  · rename_i hfetching
    rw [and_iff_right hfetching]
    split
    · rename_i hread
      rw [hread]
      exact iff_of_false (poller_getAndCompareRoots feeType s _ _) (panics_ok _)
    · rename_i hread
      rw [hread]
      exact iff_of_false (by simp) (panics_error _)
    · rename_i hread
      rw [hread]
      exact iff_of_true rfl (panics_panic _)
  · rename_i hfetching
    exact iff_of_false h fun hpanic => hfetching hpanic.1

/-- The poller panics on the roots it reads, and on nothing else of its own. -/
theorem poller_exits_iff (s : Relay) (a : Relay.Action) (h : s.poller ≠ .exited) :
    (s.step feeType a).poller = .exited
      ↔ ∃ l1Root response, a = .fetched l1Root response ∧ s.poller = .fetching
          ∧ (Panics l1Root ∨ (∃ root, l1Root = .ok root) ∧ Overflows response) := by
  cases a with
  | event event =>
      rw [(Relay.frame_event feeType s event).1]
      exact iff_of_false h (by simp)
  | fetched l1Root response =>
      rw [fetched_exits_iff s l1Root response h]
      simp
  | poll =>
      refine iff_of_false ?_ (by simp)
      simp only [Relay.step]
      split
      · simp
      · exact h
  | pollEstimated outcome =>
      refine iff_of_false ?_ (by simp)
      simp only [Relay.step]
      split
      · cases outcome <;> simp [Relay.pollAttempt]
      · exact h
  | pollPropagated outcome =>
      refine iff_of_false ?_ (by simp)
      simp only [Relay.step]
      split
      · cases outcome <;> simp
      · exact h
  | _ => exact iff_of_false h (by simp)

/-- **An answer to a call panics exactly if it cannot be unwrapped**: what is
in step is a call under way. -/
theorem InStep.panic_iff (h : InStep config s) {t : Submitter} {x : Exchange Request Response}
    {prog prog' : Task (Except StateBridgeError Unit)}
    (hanswered : Answered config s t x prog prog') :
    prog' = .panic ↔ unwrapFails x = true := by
  obtain ⟨value, tr, -, hrun⟩ := h.answered hanswered
  exact (retryLoop_unwraps config value retryDelays).panic_iff hrun hanswered.reply

/-- The calls that panicked, after a step of a task: a new call has not. -/
theorem calls_task (h : InStep config s) (b : Relay.Action) (t : Submitter) :
    (run (Submitters.step config) s.submitters
        (callsMade s.relay (s.relay.step feeType b))).calls t = some .panic
      ↔ s.submitters.calls t = some .panic := by
  obtain ⟨hcalls, -⟩ := calls_callsMade config (s.relay.step feeType b) h.idle_iff
  rw [hcalls t]
  cases hnew : newCall s.relay (s.relay.step feeType b) t with
  | none => rfl
  | some value =>
      -- the task was in no call before
      have hidle := h.idle t (Option.isNone_iff_eq_none.mp (newCall_eq_some hnew).1)
      refine iff_of_false ?_ ?_
      · intro hcall
        cases hcall
      · intro hcall
        unfold Submitters.Idle at hidle
        rw [hcall] at hidle
        cases hidle

/-- The calls that panicked, after an answer. -/
theorem calls_answer (h : InStep config s) {t : Submitter} {x : Exchange Request Response}
    {prog prog' : Task (Except StateBridgeError Unit)}
    (hanswered : Answered config s t x prog prog') :
    (∃ t', (answer s.submitters t prog' x).calls t' = some .panic)
      ↔ (∃ t', s.submitters.calls t' = some .panic) ∨ unwrapFails x = true := by
  rw [← h.panic_iff hanswered]
  have hself : (answer s.submitters t prog' x).calls t = some prog' := Function.update_self ..
  have hother : ∀ t', t' ≠ t → (answer s.submitters t prog' x).calls t' = s.submitters.calls t' :=
    fun t' ht => Function.update_of_ne ht ..
  constructor
  · intro hpanic
    obtain ⟨t', ht'⟩ := hpanic
    by_cases ht : t' = t
    · subst ht
      exact .inr (Option.some.inj (hself.symm.trans ht'))
    · exact .inl ⟨t', (hother t' ht).symm.trans ht'⟩
  · intro hpanic
    cases hpanic with
    | inl hpanic =>
        obtain ⟨t', ht'⟩ := hpanic
        refine ⟨t', ?_⟩
        by_cases ht : t' = t
        · -- a call that panicked is answered nothing
          subst ht
          obtain rfl : Prog.panic = prog := Option.some.inj (ht'.symm.trans hanswered.call)
          obtain ⟨k, hk, -⟩ := reply?_eq_some hanswered.reply
          cases hk
        · exact (hother t' ht).trans ht'
    | inr hpanic =>
        subst hpanic
        exact ⟨t, hself⟩

/-- A call that returns does not make the poller panic. -/
theorem goOn_poller (s : Relay) (t : Submitter) (prog : Task (Except StateBridgeError Unit)) :
    (goOn feeType s t prog).poller = .exited ↔ s.poller = .exited := by
  cases prog with
  | ret r =>
      constructor
      · intro hexited
        by_contra h
        obtain ⟨l1Root, response, heq, -⟩ := (poller_exits_iff s (returns t r) h).mp hexited
        cases t <;> cases heq
      · exact poller_stays_exited s (returns t r)
  | _ => rfl

theorem not_doomed_iff : s.doomed = false ↔ s.monitorPanicked ≠ true
    ∧ s.relay.poller ≠ .exited ∧ ¬ ∃ t, s.submitters.calls t = some .panic := by
  rw [← Bool.not_eq_true, doomed_iff, not_or, not_or]

/-- A step of a task dooms the process if it makes the poller panic. -/
theorem doomed_task_iff (h : InStep config s) (hlive : s.exited = false) (hsafe : s.doomed = false)
    (b : Relay.Action) :
    (s.step feeType config (.task b)).doomed = true ↔ Kills config s (.task b) := by
  obtain ⟨hmonitor, hpoller, hcalls⟩ := not_doomed_iff.mp hsafe
  by_cases hreturn : isReturn b = true
  · have hsame : s.step feeType config (.task b) = s := if_pos (by rw [hreturn, Bool.or_true])
    rw [hsame, hsafe]
    refine iff_of_false Bool.false_ne_true fun hkills => ?_
    cases b <;> first | exact hkills | cases hreturn
  · have hstep : s.step feeType config (.task b) = { s with
        relay := s.relay.step feeType b
        submitters := run (Submitters.step config) s.submitters
          (callsMade s.relay (s.relay.step feeType b)) } :=
      if_neg (by simpa [hlive] using hreturn)
    rw [hstep, doomed_iff]
    simp only [calls_task h b, hcalls, or_false, hmonitor, Bool.false_eq_true, false_or,
      poller_exits_iff s.relay b hpoller]
    constructor
    · intro hexits
      obtain ⟨l1Root, response, hb, hkills⟩ := hexits
      subst hb
      exact hkills
    · intro hkills
      cases b with
      | fetched l1Root response => exact ⟨l1Root, response, rfl, hkills⟩
      | _ => exact hkills.elim

theorem doomed_reply_iff (h : InStep config s) (hlive : s.exited = false) (hsafe : s.doomed = false)
    (t : Submitter) (x : Exchange Request Response) :
    (s.step feeType config (.reply t x)).doomed = true ↔ Kills config s (.reply t x) := by
  obtain ⟨hmonitor, hpoller, hcalls⟩ := not_doomed_iff.mp hsafe
  by_cases htaken : ∃ prog prog', Answered config s t x prog prog'
  · have hkills : Kills config s (.reply t x) ↔ unwrapFails x = true := and_iff_right htaken
    obtain ⟨prog, prog', hanswered⟩ := htaken
    rw [hkills, step_answered hlive hanswered, doomed_iff]
    simp only [calls_answer h hanswered, goOn_poller, hcalls, hmonitor, hpoller,
      Bool.false_eq_true, false_or]
  · rw [step_refused htaken, hsafe]
    exact iff_of_false Bool.false_ne_true fun hkills => htaken hkills.1

theorem doomed_balances_iff (hlive : s.exited = false) (hsafe : s.doomed = false)
    (balance gasPrice : Except String U256) :
    (s.step feeType config (.balances balance gasPrice)).doomed = true
      ↔ Kills config s (.balances balance gasPrice) := by
  have hmonitor : s.monitorPanicked = false :=
    Bool.eq_false_iff.mpr (not_doomed_iff.mp hsafe).1
  have hkills : Kills config s (.balances balance gasPrice)
      ↔ Panics (pollBalances balance gasPrice) := (pollBalances_panics balance gasPrice).symm
  rw [hkills, step, if_neg (by simp [hlive, hmonitor])]
  split
  · rename_i m hpanic
    rw [hpanic]
    exact iff_of_true (doomed_iff.mpr (.inl rfl)) (panics_panic m)
  · rename_i hfine
    rw [hsafe]
    refine iff_of_false Bool.false_ne_true ?_
    intro hpanics
    obtain ⟨m, hm⟩ := hpanics
    exact hfine m hm

/-- **The step that dooms the process** is one that makes a task panic. -/
theorem doomed_step_iff (h : InStep config s) (hlive : s.exited = false) (hsafe : s.doomed = false)
    (a : Action) : (s.step feeType config a).doomed = true ↔ Kills config s a := by
  have hsame : (s.step feeType config a).doomed = s.doomed → ¬ Kills config s a →
      ((s.step feeType config a).doomed = true ↔ Kills config s a) := by
    intro heq hkills
    rw [heq, hsafe]
    exact iff_of_false Bool.false_ne_true hkills
  cases a with
  | task b => exact doomed_task_iff h hlive hsafe b
  | reply t x => exact doomed_reply_iff h hlive hsafe t x
  | balances balance gasPrice => exact doomed_balances_iff hlive hsafe balance gasPrice
  | exit =>
      refine hsame ?_ id
      rw [step, if_neg (by rw [hsafe]; exact Bool.false_ne_true)]
  | mine tx =>
      refine hsame ?_ id
      simp only [doomed, step, Submitters.step]
      split <;> rfl
  | mineOther => exact hsame rfl id

/-- A process that is doomed stays so. -/
theorem doomed_stays (h : InStep config s) (hdoomed : s.doomed = true) (a : Action) :
    (s.step feeType config a).doomed = true := by
  rw [doomed_iff] at hdoomed ⊢
  rcases step_cases feeType config s a with heq | ⟨b, -, -, heq⟩
      | ⟨t, x, prog, prog', -, hanswered, heq⟩ | ⟨_, _, _, -, -, heq⟩ | ⟨-, -, heq⟩
      | ⟨b, count, included, -, -, -, -, hsub, heq⟩ <;> rw [heq]
  · exact hdoomed
  · simp only [calls_task h b]
    exact hdoomed.imp_right (Or.imp_left (poller_stays_exited s.relay b))
  · simp only [goOn_poller, calls_answer h hanswered]
    exact hdoomed.imp_right (Or.imp_right .inl)
  · exact .inl rfl
  · exact hdoomed
  · rw [hsub]
    exact hdoomed

/-- A process only exits when it is doomed. -/
structure Supervised (config : Config) (s : Process) : Prop where
  inStep : InStep config s
  exited : s.exited = true → s.doomed = true

theorem supervised_start (now count : Nat) : Supervised config (start now count) where
  inStep := inStep_start now count
  exited h := absurd h Bool.false_ne_true

theorem Supervised.live (h : Supervised config s) (hsafe : s.doomed = false) :
    s.exited = false := by
  cases hexited : s.exited with
  | false => rfl
  | true =>
      rw [h.exited hexited] at hsafe
      cases hsafe

theorem Supervised.step (h : Supervised config s) (a : Action) :
    Supervised config (s.step feeType config a) where
  inStep := h.inStep.step a
  exited := by
    intro hexited
    cases hdoomed : s.doomed with
    | true => exact doomed_stays h.inStep hdoomed a
    | false =>
        -- only a doomed process exits
        have hlive := h.live hdoomed
        rcases step_cases feeType config s a with heq | ⟨b, -, -, heq⟩
            | ⟨t, x, prog, prog', -, -, heq⟩ | ⟨_, _, _, -, -, heq⟩ | ⟨-, hexit, -⟩
            | ⟨b, count, included, -, -, -, -, -, heq⟩
        case inr.inr.inr.inr.inl =>
          rw [hdoomed] at hexit
          cases hexit
        all_goals
          rw [heq, hlive] at hexited
          cases hexited

theorem supervised_run (feeType : Fee) (config : Config) (now count : Nat) (as : List Action) :
    Supervised config (run (step feeType config) (start now count) as) :=
  run_invariant (step feeType config) (P := fun _ _ => True) (fun _ a h _ => h.step a)
    (supervised_start now count) (along_true _ _ as)

/-- Nothing but the chain goes on. -/
structure Over (s s' : Process) : Prop where
  exited : s'.exited = true
  relay : s'.relay = s.relay
  calls : s'.submitters.calls = s.submitters.calls
  broadcast : s'.submitters.broadcast = s.submitters.broadcast

theorem over_step (hexited : s.exited = true) (a : Action) : Over s (s.step feeType config a) := by
  cases a with
  | mine tx =>
      refine ⟨hexited, rfl, ?_, ?_⟩ <;>
      · simp only [step, Submitters.step]
        split <;> rfl
  | exit =>
      simp only [step]
      split
      · exact ⟨rfl, rfl, rfl, rfl⟩
      · exact ⟨hexited, rfl, rfl, rfl⟩
  | mineOther => exact ⟨hexited, rfl, rfl, rfl⟩
  | _ =>
      simp only [step, hexited, Bool.true_or, if_true]
      exact ⟨hexited, rfl, rfl, rfl⟩

theorem over_run (hexited : s.exited = true) (as : List Action) :
    Over s (run (step feeType config) s as) := by
  refine run_invariant (step feeType config) (I := fun s' : Process => Over s s')
    (P := fun _ _ => True) ?_ ⟨hexited, rfl, rfl, rfl⟩ (along_true _ _ as)
  intro s' a h _
  have hnext : Over s' (s'.step feeType config a) := over_step h.exited a
  exact ⟨hnext.exited, hnext.relay.trans h.relay, hnext.calls.trans h.calls,
    hnext.broadcast.trans h.broadcast⟩

/-- **What ends the process**: in every run of the tasks, their calls, the
monitor and the chain, the process is doomed if and only if one of the answers
that make a task panic was taken; it exits only when it is doomed; and from then
on no task does anything and nothing is broadcast. -/
theorem doomed_iff_killed (feeType : Fee) (config : Config) (now count : Nat) (as : List Action) :
    let s := run (step feeType config) (start now count) as
    (s.doomed = false
        ↔ Along (step feeType config) (fun s a => ¬ Kills config s a) (start now count) as)
      ∧ (s.exited = true → s.doomed = true
          ∧ ∀ bs, Over s (run (step feeType config) s bs)) := by
  have hsupervised := supervised_run feeType config now count as
  refine ⟨?_, fun hexited => ⟨hsupervised.exited hexited, over_run hexited⟩⟩
  refine (and_iff_right hsupervised).symm.trans (run_iff_along (step feeType config)
    (I := fun s : Process => Supervised config s ∧ s.doomed = false)
    (D := fun s : Process => Supervised config s ∧ s.doomed = true) ?_ ?_ ?_ ?_
    ⟨supervised_start now count, rfl⟩)
  · -- an answer that kills nobody
    intro s a hsafely hkills
    obtain ⟨h, hsafe⟩ := hsafely
    have hdoomed : (s.step feeType config a).doomed = true ↔ Kills config s a :=
      doomed_step_iff h.inStep (h.live hsafe) hsafe a
    exact ⟨h.step a, Bool.eq_false_iff.mpr fun hnext => hkills (hdoomed.mp hnext)⟩
  · intro s a hsafely hkills
    obtain ⟨h, hsafe⟩ := hsafely
    exact ⟨h.step a, (doomed_step_iff h.inStep (h.live hsafe) hsafe a).mpr (not_not.mp hkills)⟩
  · intro s a hlost
    obtain ⟨h, hdoomed⟩ := hlost
    exact ⟨h.step a, doomed_stays h.inStep hdoomed a⟩
  · intro s hlost hsafely
    have hsafe := hsafely.2
    rw [hlost.2] at hsafe
    cases hsafe

/-- The process goes on without its executor. -/
example :
    let s := run (step .estimate sampleConfig) (start 0 0)
      [.task (.event ⟨5⟩), .task .recv, .task (.estimated (.error "timeout"))]
    s.relay.path.executor = .exited (.error (.estimateMessagingFee "timeout"))
      ∧ s.doomed = false := by
  exact ⟨rfl, rfl⟩

end Process

end WorldIDBridge.Service
