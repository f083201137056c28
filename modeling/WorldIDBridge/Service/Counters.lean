import WorldIDBridge.Service.Metered

/-!
# What the counters tell

A call owes its counters: what it did and has not told yet, or told and not
done yet. `debts` is the order of requests and notes that keeps a debt small
and clears it before the call returns. From it follows what the metrics tell
of both tasks in every interleaving.
-/

namespace WorldIDBridge.Service

open Prog TransitionRun

namespace Telemetry

variable (config : Config) (value : U256)

/-! ## What a call owes the counters -/

/-- The counter an error of a call is counted by. -/
def counted : StateBridgeError → Option Note
  | .transactionError .insufficientWalletFunds => some .recordTxErrorInsufficientFunds
  | .transactionError (.providerError _) => some .recordTxErrorProvider
  | .providerError _ => some .recordTxErrorProvider
  | .transactionError (.middlewareError _) => some .recordTxErrorMiddleware
  | .gasLimitError _ => some .recordTxErrorGasLimit
  | .transactionError (.txReceiptNotFound _) => some .recordTxReceiptFailure
  | _ => none

/-- What a call has done and not told yet, or told and not done yet. -/
inductive Debt where
  | clear
  /-- A transaction was simulated, and `sent` to the node, but not recorded. -/
  | simulated (sent : Bool)
  /-- A retry was recorded, and its delay is to come. -/
  | sleeping
  /-- The last record was made, and the call returns. -/
  | closed (n : Note)
  deriving DecidableEq, Repr

/-- The order of requests and records. -/
def debts : Monitor (Noted Request Note) (Noted.Answer Response) Debt where
  allows
    | .clear, .ask (.sleep _) => False
    | .clear, .ask (.sendRawTransaction _) => False
    | .clear, .ask _ => True
    | .clear, .note (.recordTransaction _ _) => False
    | .clear, .note _ => True
    | .simulated _, .ask (.sleep _) => False
    | .simulated _, .ask (.call _) => False
    | .simulated sent, .ask (.sendRawTransaction _) => sent = false
    | .simulated _, .ask _ => True
    | .simulated _, .note (.recordTransaction _ _) => True
    | .simulated _, .note _ => False
    | .sleeping, .ask (.sleep _) => True
    | .sleeping, _ => False
    | .closed _, _ => False
  next d
    | .ask (.call _), .ok () => .simulated false
    | .ask (.sendRawTransaction _), _ => .simulated true
    | .ask (.sleep _), _ => .clear
    | .ask _, _ => d
    | .note (.recordTransaction false _), _ => .clear
    | .note .recordTxSendFailFast, _ => .sleeping
    | .note n, _ => .closed n

/-- A call that returns has told what it came to, and one that panics has not
made a last record. -/
def Closes : Option (Except StateBridgeError Unit) → Debt → Prop
  | some (.ok _), d => ∃ gasUsed, d = .closed (.recordTransaction true gasUsed)
  | some (.error e), d => d = match counted e with
      | some n => .closed n
      | none => .clear
  | none, d => ∀ n, d ≠ .closed n

namespace Debt

/-- Simulated and not recorded. -/
def unrecorded : Debt → Nat
  | .simulated _ => 1
  | _ => 0

/-- Simulated and not sent. -/
def unsent : Debt → Nat
  | .simulated false => 1
  | _ => 0

/-- Recorded and not slept. -/
def unslept : Debt → Nat
  | .sleeping => 1
  | _ => 0

end Debt

/-- Any answer may come. -/
def anyAnswer (x : Noted Request Note) (_ : Noted.Answer Response x) : Prop := True

/-- Filling and simulating: with success it leaves a transaction to be told of. -/
theorem fillAndSimulate_debt :
    (fillAndSimulateEip1559Transaction propagateRootCalldata config.l1BridgeAddress
        config.walletAddress config.chainId value).run.quiet.outcome debts anyAnswer
      (fun o d => match o with
        | some (.ok _) => d = .simulated false
        | some (.error e) => d = .clear ∧ ∃ m, e = .middlewareError m
        | none => d = .clear) .clear := by
  rw [outcome_quiet]
  simp only [fillAndSimulateEip1559Transaction, outcome_mapErr_bind, outcome_lift_bind]
  refine ⟨trivial, fun fees _ => ?_⟩
  cases fees with
  | error e => exact ⟨rfl, e, rfl⟩
  | ok fees =>
      refine ⟨trivial, fun count _ => ?_⟩
      cases count with
      | error e => rfl
      | ok nonce =>
          refine ⟨trivial, fun filled _ => ?_⟩
          cases filled with
          | error e => exact ⟨rfl, e, rfl⟩
          | ok gas =>
              simp only [outcome, outcome_unwrap]
              cases gas with
              | none => rfl
              | some gas =>
                  simp only
                  cases mulU256? gas 150 with
                  | none => rfl
                  | some product =>
                      refine ⟨trivial, fun simulated _ => ?_⟩
                      cases simulated with
                      | error e => exact ⟨rfl, e, rfl⟩
                      | ok _ => rfl

/-- Submitting neither simulates nor waits, and sends once at most. -/
theorem submit_debt (tx : Eip1559Transaction) (gasLimit : U256) :
    (submit config tx gasLimit).quiet.outcome debts anyAnswer
      (fun _ d => ∃ sent, d = .simulated sent) (.simulated false) := by
  rw [outcome_quiet]
  unfold submit
  split
  · rw [outcome_bind]
    simp only [signAndSendTransaction, outcome_mapErr_bind, outcome_lift_bind]
    refine ⟨trivial, fun signed _ => ?_⟩
    cases signed with
    | error e => exact ⟨false, rfl⟩
    | ok _ =>
        refine ⟨rfl, fun sent _ => ?_⟩
        cases sent with
        | error e =>
            simp only [outcome]
            split <;> exact ⟨true, rfl⟩
        | ok _ =>
            simp only [outcome, waitForTxReceipt, outcome_mapErr_bind]
            refine ⟨trivial, fun awaited _ => ?_⟩
            cases awaited with
            | error e => exact ⟨true, rfl⟩
            | ok receipt =>
                cases receipt with
                | none => exact ⟨true, rfl⟩
                | some receipt =>
                    obtain ⟨status, gasUsed⟩ := receipt
                    cases gasUsed with
                    | none => exact ⟨true, rfl⟩
                    | some gasUsed =>
                        show Prog.outcome _ _ ((unwrap (asU64? gasUsed)).bind _) _ _
                        rw [outcome_bind, outcome_unwrap]
                        cases asU64? gasUsed <;> exact ⟨true, rfl⟩
  · exact ⟨false, rfl⟩

theorem record_outcome {n : Note} {d : Debt} {post : Option Unit → Debt → Prop} :
    (record true n).outcome debts anyAnswer post d
      ↔ debts.allows d (.note n) ∧ post (some ()) (debts.next d (.note n) ()) :=
  and_congr_right fun _ => ⟨fun h => h () trivial, fun h _ _ => h⟩

/-- One attempt records what it simulated. -/
theorem propagateRoot_debt :
    (propagateRoot true config value).run.outcome debts anyAnswer
      (fun o d => match o with
        | some (.ok _) => ∃ gasUsed, d = .closed (.recordTransaction true gasUsed)
        | some (.error _) => d = .clear
        | none => ∀ n, d ≠ .closed n) .clear := by
  simp only [propagateRoot, outcome_mapErr_bind, outcome_lift_bind, outcome_unwrap]
  refine outcome_mono (fillAndSimulate_debt config value) fun filled d h => ?_
  cases filled with
  | none =>
      subst h
      intro n hn
      cases hn
  | some filled =>
      cases filled with
      | error e => exact h.1
      | ok tx =>
          subst h
          obtain ⟨_, _, _, _, _, _, _, _, gas⟩ := tx
          cases gas with
          | none =>
              intro n hn
              cases hn
          | some gasLimit =>
              refine outcome_mono (submit_debt config _ gasLimit) fun submitted d h => ?_
              obtain ⟨sent, rfl⟩ := h
              cases submitted with
              | none =>
                  intro n hn
                  cases hn
              | some submitted =>
                  obtain ⟨result, gasUsed⟩ := submitted
                  refine record_outcome.mpr ?_
                  cases result with
                  | ok _ => exact ⟨trivial, gasUsed, rfl⟩
                  | error e => exact ⟨trivial, rfl⟩

/-- An error that is not tried again is counted as its kind. -/
theorem giveUp_debt (err : StateBridgeError) :
    (giveUp true err).outcome debts anyAnswer Closes .clear := by
  simp only [giveUp, outcome_bind]
  cases err with
  | middlewareError e => rfl
  | providerError e => exact ⟨trivial, fun _ _ => rfl⟩
  | gasLimitError gasLimit => exact ⟨trivial, fun _ _ => rfl⟩
  | transactionError e =>
      cases e with
      | walletError e => rfl
      | _ => exact ⟨trivial, fun _ _ => rfl⟩

/-- **A call that returns owes nothing.** -/
theorem retryLoop_debt (delays : List Nat) :
    (retryLoop true config value delays).outcome debts anyAnswer Closes .clear := by
  induction delays with
  | nil =>
      rw [retryLoop, outcome_bind]
      refine outcome_mono (propagateRoot_debt config value) fun result d h => ?_
      cases result with
      | none => exact h
      | some result =>
          cases result with
          | ok _ => exact h
          | error err =>
              subst h
              exact giveUp_debt err
  | cons delay delays ih =>
      rw [retryLoop, outcome_bind]
      refine outcome_mono (propagateRoot_debt config value) fun result d h => ?_
      cases result with
      | none => exact h
      | some result =>
          cases result with
          | ok _ => exact h
          | error err =>
              subst h
              simp only
              split
              · rw [outcome_bind, record_outcome]
                exact ⟨trivial, trivial, fun _ _ => ih⟩
              · exact giveUp_debt err

/-! ## What one move does to the accounts -/

/-- A simulation that succeeded. -/
def simulates : Exchange Request Response → Bool
  | ⟨.call _, .ok _⟩ => true
  | _ => false

/-- A delay before a retry. -/
def sleeps : Exchange Request Response → Bool
  | ⟨.sleep _, _⟩ => true
  | _ => false

/-- A result that the counter of the note stands for. -/
def countedBy (n : Note) : Except StateBridgeError Unit → Bool
  | .ok _ => false
  | .error e => counted e = some n

/-- The error counters. -/
def errorCount (m : Metrics) : Note → Nat
  | .recordTxReceiptFailure => m.txReceiptFailures
  | .recordTxErrorInsufficientFunds => m.txErrorInsufficientFunds
  | .recordTxErrorProvider => m.txErrorProvider
  | .recordTxErrorMiddleware => m.txErrorMiddleware
  | .recordTxErrorGasLimit => m.txErrorGasLimit
  | _ => 0

/-- The counters agree with the results of the calls. -/
structure Agrees (m : Metrics) (results : List (Except StateBridgeError Unit)) : Prop where
  successful : m.transactionsSuccessful = results.countP (·.isOk)
  errors : ∀ n, errorCount m n = results.countP (countedBy n)

/-- A request adds to the debt what it does. -/
theorem debt_ask {d : Debt} {q : Request} (h : debts.allows d (.ask q)) (u : Response q) :
    let d' := debts.next d (.ask q) u
    d'.unrecorded = d.unrecorded + (if simulates ⟨q, u⟩ then 1 else 0)
      ∧ d'.unsent + (sentIn ⟨q, u⟩).length = d.unsent + (if simulates ⟨q, u⟩ then 1 else 0)
      ∧ d'.unslept + (if sleeps ⟨q, u⟩ then 1 else 0) = d.unslept := by
  cases q with
  | call tx =>
      cases d with
      | clear => cases u <;> exact ⟨rfl, rfl, rfl⟩
      | _ => exact h.elim
  | sendRawTransaction tx =>
      cases d with
      | simulated sent =>
          obtain rfl : sent = false := h
          exact ⟨rfl, rfl, rfl⟩
      | _ => exact h.elim
  | sleep secs =>
      cases d with
      | sleeping => exact ⟨rfl, rfl, rfl⟩
      | _ => exact h.elim
  | _ =>
      cases d with
      | clear => exact ⟨rfl, rfl, rfl⟩
      | simulated sent => exact ⟨rfl, rfl, rfl⟩
      | _ => exact h.elim

/-- Nothing that is answered closes a call. -/
theorem not_closed_of_ask {d : Debt} {q : Request} (h : debts.allows d (.ask q)) (u : Response q)
    (n : Note) : debts.next d (.ask q) u ≠ .closed n := by
  have hopen : d ≠ .closed n := by
    intro hd
    subst hd
    exact h
  cases q with
  | call tx =>
      cases u with
      | error e => exact hopen
      | ok _ =>
          intro hn
          cases hn
  | sendRawTransaction tx =>
      intro hn
      cases hn
  | sleep secs =>
      intro hn
      cases hn
  | _ => exact hopen

/-- A note takes off the debt what it tells. -/
theorem debt_note {d : Debt} {n : Note} (h : debts.allows d (.note n)) (m : Metrics) :
    let d' := debts.next d (.note n) ()
    d'.unrecorded + (m.record n).transactionsSent = d.unrecorded + m.transactionsSent
      ∧ d'.unsent ≤ d.unsent
      ∧ (m.record n).txSendFailFast + d.unslept = m.txSendFailFast + d'.unslept := by
  cases n with
  | recordTransaction success gasUsed =>
      cases d with
      | simulated sent =>
          have hsent : (m.record (.recordTransaction success gasUsed)).transactionsSent
              = m.transactionsSent + 1 := by cases success <;> cases gasUsed <;> rfl
          have hfast : (m.record (.recordTransaction success gasUsed)).txSendFailFast
              = m.txSendFailFast := by cases success <;> cases gasUsed <;> rfl
          have hone : 0 + (m.transactionsSent + 1) = 1 + m.transactionsSent := by omega
          rw [hsent, hfast]
          cases success with
          | true => exact ⟨hone, Nat.zero_le _, rfl⟩
          | false => exact ⟨hone, Nat.zero_le _, rfl⟩
      | _ => exact h.elim
  | _ =>
      cases d with
      | clear => exact ⟨rfl, Nat.le_refl _, rfl⟩
      | _ => exact h.elim

/-- A transaction is recorded as successful or as failed. -/
theorem sent_record {m : Metrics}
    (h : m.transactionsSent = m.transactionsSuccessful + m.transactionsFailed) (n : Note) :
    (m.record n).transactionsSent
      = (m.record n).transactionsSuccessful + (m.record n).transactionsFailed := by
  cases n with
  | recordTransaction success gasUsed =>
      cases success <;> cases gasUsed <;>
        simp [Metrics.record, Metrics.recordTransaction] <;> omega
  | _ => exact h

/-- A call that does not close returns with nothing to be counted, if it does. -/
theorem Agrees.open_debt {m : Metrics} {results : List (Except StateBridgeError Unit)}
    (h : Agrees m results) {prog : MeteredTask (Except StateBridgeError Unit)} {d : Debt}
    (hprog : prog.outcome debts anyAnswer Closes d) (hopen : ∀ n, d ≠ .closed n) :
    Agrees m (Metered.returned prog ++ results) := by
  cases prog with
  | ret r =>
      cases r with
      | ok _ =>
          obtain ⟨gasUsed, rfl⟩ := hprog
          exact absurd rfl (hopen _)
      | error e =>
          cases hcounted : counted e with
          | some n =>
              have hd : d = .closed n := by
                have hcloses : d = match counted e with
                  | some n => .closed n
                  | none => .clear := hprog
                rwa [hcounted] at hcloses
              exact absurd hd (hopen n)
          | none =>
              refine ⟨?_, fun n => ?_⟩
              · rw [h.successful]
                rfl
              · rw [h.errors]
                simp [Metered.returned, countedBy, hcounted]
  | panic => exact h
  | call q k => exact h

/-- Recording an error of a kind counts one more of that kind. -/
theorem record_counted {e : StateBridgeError} {n : Note} (h : counted e = some n) (m : Metrics) :
    (m.record n).transactionsSuccessful = m.transactionsSuccessful
      ∧ ∀ n', errorCount (m.record n) n' = errorCount m n' + (if n = n' then 1 else 0) := by
  have hkind : ∀ success gasUsed, n ≠ .recordTransaction success gasUsed := by
    intro success gasUsed hn
    subst hn
    cases e with
    | transactionError e => cases e <;> cases h
    | _ => cases h
  have hretry : n ≠ .recordTxSendFailFast := by
    intro hn
    subst hn
    cases e with
    | transactionError e => cases e <;> cases h
    | _ => cases h
  cases n with
  | recordTransaction success gasUsed => exact absurd rfl (hkind success gasUsed)
  | recordTxSendFailFast => exact absurd rfl hretry
  | _ => exact ⟨rfl, fun n' => by cases n' <;> rfl⟩

/-- A call that closes returns the result its last note told. -/
theorem Agrees.closed {m : Metrics} {results : List (Except StateBridgeError Unit)}
    (h : Agrees m results) {prog : MeteredTask (Except StateBridgeError Unit)} {n : Note}
    (hprog : prog.outcome debts anyAnswer Closes (.closed n)) :
    Agrees (m.record n) (Metered.returned prog ++ results) := by
  cases prog with
  | ret r =>
      cases r with
      | ok _ =>
          obtain ⟨gasUsed, heq⟩ := hprog
          cases heq
          refine ⟨?_, fun n => ?_⟩
          · have hrecord : (m.record (.recordTransaction true gasUsed)).transactionsSuccessful
                = m.transactionsSuccessful + 1 := by cases gasUsed <;> rfl
            rw [hrecord, h.successful]
            exact (List.countP_cons_of_pos rfl).symm
          · have hrecord : errorCount (m.record (.recordTransaction true gasUsed)) n
                = errorCount m n := by cases gasUsed <;> cases n <;> rfl
            rw [hrecord, h.errors]
            rfl
      | error e =>
          have hcounted : counted e = some n := by
            have hcloses : Debt.closed n = match counted e with
              | some n => .closed n
              | none => .clear := hprog
            split at hcloses
            · rename_i n' heq
              cases hcloses
              exact heq
            · cases hcloses
          obtain ⟨hsuccessful, herrors⟩ := record_counted hcounted m
          refine ⟨?_, fun n' => ?_⟩
          · rw [hsuccessful, h.successful]
            rfl
          · rw [herrors, h.errors]
            show _ = (Except.error e :: results).countP (countedBy n')
            rw [List.countP_cons]
            simp [countedBy, hcounted]
  | panic => exact absurd rfl (hprog n)
  | call q k => exact hprog.1.elim

/-- A call closes with the note it makes. -/
theorem closed_of_note {d : Debt} {n n' : Note}
    (h : debts.next d (.note n) () = .closed n') : n' = n := by
  cases n with
  | recordTransaction success gasUsed =>
      cases success with
      | true =>
          cases h
          rfl
      | false => cases h
  | recordTxSendFailFast => cases h
  | _ =>
      cases h
      rfl

/-- A note that closes nothing. -/
theorem Agrees.note_open {m : Metrics} {results : List (Except StateBridgeError Unit)}
    (h : Agrees m results) {d : Debt} {n : Note}
    (hopen : ∀ n', debts.next d (.note n) () ≠ .closed n') : Agrees (m.record n) results := by
  cases n with
  | recordTransaction success gasUsed =>
      cases success with
      | true => exact absurd rfl (hopen _)
      | false =>
          cases gasUsed <;>
            exact ⟨h.successful, fun n => Eq.trans (by cases n <;> rfl) (h.errors n)⟩
  | recordTxSendFailFast => exact ⟨h.successful, fun n => Eq.trans (by cases n <;> rfl) (h.errors n)⟩
  | _ => exact absurd rfl (hopen _)

end Telemetry

namespace Metered

open Telemetry

variable {s : Metered}

/-! ## What the counters tell -/

/-- The tasks in a call, or ended by a panic in one. -/
def inCall (s : Metered) : Nat := [Submitter.executor, .poller].countP fun t => !s.Idle t

/-- A debt of both tasks together. -/
def both (w : Debt → Nat) (d : Submitter → Debt) : Nat := w (d .executor) + w (d .poller)

theorem both_update (w : Debt → Nat) (d : Submitter → Debt) (t : Submitter) (d' : Debt) :
    both w (Function.update d t d') + w (d t) = both w d + w d' := by
  cases t <;> simp [both] <;> omega

/-- **The invariant**: the counters are what was done, but for the debts of the
calls in progress. -/
structure Balanced (d : Submitter → Debt) (s : Metered) : Prop where
  call : ∀ t prog, s.calls t = some prog → prog.outcome debts anyAnswer Closes (d t)
  free : ∀ t, s.calls t = none → d t = .clear
  sent : s.metrics.transactionsSent
    = s.metrics.transactionsSuccessful + s.metrics.transactionsFailed
  simulated : s.answered.countP simulates = s.metrics.transactionsSent + both Debt.unrecorded d
  broadcast : s.broadcast.length + both Debt.unsent d ≤ s.answered.countP simulates
  slept : s.metrics.txSendFailFast = s.answered.countP sleeps + both Debt.unslept d
  agrees : Agrees s.metrics s.results

/-- A task that is in no call owes nothing. -/
theorem Balanced.idle {d : Submitter → Debt} (h : Balanced d s) {t : Submitter}
    (hidle : s.Idle t = true) :
    (d t).unrecorded = 0 ∧ (d t).unsent = 0 ∧ (d t).unslept = 0 := by
  unfold Idle at hidle
  cases hcall : s.calls t with
  | none =>
      rw [h.free t hcall]
      exact ⟨rfl, rfl, rfl⟩
  | some prog =>
      have hprog := h.call t prog hcall
      rw [hcall] at hidle
      cases prog with
      | ret r =>
          cases r with
          | ok _ =>
              obtain ⟨gasUsed, hd⟩ := hprog
              rw [hd]
              exact ⟨rfl, rfl, rfl⟩
          | error e =>
              have hd : d t = match counted e with
                | some n => .closed n
                | none => .clear := hprog
              rw [hd]
              cases counted e <;> exact ⟨rfl, rfl, rfl⟩
      | _ => cases hidle

theorem balanced_start (count : Nat) : Balanced (fun _ => .clear) (start count) where
  call := by
    intro t prog h
    cases h
  free _ _ := rfl
  sent := rfl
  simulated := rfl
  broadcast := Nat.le_refl _
  slept := rfl
  agrees := ⟨rfl, fun n => by cases n <;> rfl⟩

/-- Replacing the call of one task, with what it owes. -/
theorem Balanced.update_call {d : Submitter → Debt} (h : Balanced d s) (t : Submitter)
    {prog : MeteredTask (Except StateBridgeError Unit)} {d' : Debt}
    (hprog : prog.outcome debts anyAnswer Closes d') :
    (∀ t' p, Function.update s.calls t (some prog) t' = some p →
        p.outcome debts anyAnswer Closes (Function.update d t d' t'))
      ∧ ∀ t', Function.update s.calls t (some prog) t' = none →
        Function.update d t d' t' = .clear := by
  constructor
  · intro t' p hp
    by_cases ht : t' = t
    · subst ht
      rw [Function.update_self] at hp ⊢
      obtain rfl := Option.some.inj hp
      exact hprog
    · rw [Function.update_of_ne ht] at hp ⊢
      exact h.call t' p hp
  · intro t' hp
    by_cases ht : t' = t
    · subst ht
      rw [Function.update_self] at hp
      cases hp
    · rw [Function.update_of_ne ht] at hp ⊢
      exact h.free t' hp

/-- A new call. -/
theorem Balanced.start_call {d : Submitter → Debt} (h : Balanced d s) {t : Submitter}
    (hidle : s.Idle t = true) (config : Config) (value : U256) :
    Balanced (Function.update d t .clear) { s with
      calls := Function.update s.calls t
        (some (Telemetry.propagateRootWithRetry true config value)) } := by
  obtain ⟨hcall, hfree⟩ := h.update_call t (retryLoop_debt config value retryDelays)
  obtain ⟨hrec, hsent, hslept⟩ := h.idle hidle
  have hrecorded := both_update Debt.unrecorded d t .clear
  have hsends := both_update Debt.unsent d t .clear
  have hsleeps := both_update Debt.unslept d t .clear
  have hclear : Debt.clear.unrecorded = 0 ∧ Debt.clear.unsent = 0 ∧ Debt.clear.unslept = 0 :=
    ⟨rfl, rfl, rfl⟩
  refine ⟨hcall, hfree, h.sent, ?_, ?_, ?_, h.agrees⟩
  · have hsim := h.simulated
    show s.answered.countP simulates = s.metrics.transactionsSent + _
    omega
  · have hbroadcast := h.broadcast
    show s.broadcast.length + _ ≤ s.answered.countP simulates
    omega
  · have hfast := h.slept
    show s.metrics.txSendFailFast = s.answered.countP sleeps + _
    omega

/-- A request answered. -/
theorem Balanced.move_ask {d : Submitter → Debt} (h : Balanced d s) {t : Submitter}
    {prog prog' : MeteredTask (Except StateBridgeError Unit)} {q : Request} {u : Response q}
    (hcall : s.calls t = some prog) (hreply : prog.reply? ⟨.ask q, u⟩ = some prog') :
    Balanced (Function.update d t (debts.next (d t) (.ask q) u)) (s.move t prog' ⟨.ask q, u⟩) := by
  obtain ⟨hallows, hprog⟩ := outcome_of_reply? (h.call t prog hcall) hreply trivial
  obtain ⟨hcalls, hfree⟩ := h.update_call t hprog
  obtain ⟨hrec, hsent, hslept⟩ := debt_ask hallows u
  have hrecorded := both_update Debt.unrecorded d t (debts.next (d t) (.ask q) u)
  have hsends := both_update Debt.unsent d t (debts.next (d t) (.ask q) u)
  have hsleeps := both_update Debt.unslept d t (debts.next (d t) (.ask q) u)
  have hsim := h.simulated
  have hbroadcast := h.broadcast
  have hfast := h.slept
  have hcount : ∀ p : Exchange Request Response → Bool,
      (⟨q, u⟩ :: s.answered).countP p = s.answered.countP p + if p ⟨q, u⟩ then 1 else 0 :=
    fun p => List.countP_cons
  refine ⟨hcalls, hfree, h.sent, ?_, ?_, ?_, h.agrees.open_debt hprog (not_closed_of_ask hallows u)⟩
  · show (⟨q, u⟩ :: s.answered).countP simulates = s.metrics.transactionsSent + _
    rw [hcount]
    omega
  · show (sentIn ⟨q, u⟩ ++ s.broadcast).length + _ ≤ (⟨q, u⟩ :: s.answered).countP simulates
    rw [hcount, List.length_append]
    omega
  · show s.metrics.txSendFailFast = (⟨q, u⟩ :: s.answered).countP sleeps + _
    rw [hcount]
    omega

/-- A note made. -/
theorem Balanced.move_note {d : Submitter → Debt} (h : Balanced d s) {t : Submitter}
    {prog prog' : MeteredTask (Except StateBridgeError Unit)} {n : Note}
    (hcall : s.calls t = some prog) (hreply : prog.reply? ⟨.note n, ()⟩ = some prog') :
    Balanced (Function.update d t (debts.next (d t) (.note n) ()))
      (s.move t prog' ⟨.note n, ()⟩) := by
  obtain ⟨hallows, hprog⟩ := outcome_of_reply? (h.call t prog hcall) hreply trivial
  obtain ⟨hcalls, hfree⟩ := h.update_call t hprog
  obtain ⟨hrec, hsent, hslept⟩ := debt_note hallows s.metrics
  have hrecorded := both_update Debt.unrecorded d t (debts.next (d t) (.note n) ())
  have hsends := both_update Debt.unsent d t (debts.next (d t) (.note n) ())
  have hsleeps := both_update Debt.unslept d t (debts.next (d t) (.note n) ())
  have hsim := h.simulated
  have hbroadcast := h.broadcast
  have hfast := h.slept
  refine ⟨hcalls, hfree, sent_record h.sent n, ?_, ?_, ?_, ?_⟩
  · show s.answered.countP simulates = (s.metrics.record n).transactionsSent + _
    omega
  · show s.broadcast.length + _ ≤ s.answered.countP simulates
    omega
  · show (s.metrics.record n).txSendFailFast = s.answered.countP sleeps + _
    omega
  · show Agrees (s.metrics.record n) (Metered.returned prog' ++ s.results)
    by_cases hopen : ∀ n', debts.next (d t) (.note n) () ≠ .closed n'
    · exact (h.agrees.note_open hopen).open_debt hprog hopen
    · push Not at hopen
      obtain ⟨n', hclosed⟩ := hopen
      obtain rfl := closed_of_note hclosed
      have hlast : prog'.outcome debts anyAnswer Closes (.closed n') := by rwa [← hclosed]
      exact h.agrees.closed hlast

theorem Balanced.step {d : Submitter → Debt} (h : Balanced d s) (config : Config) (a : Action) :
    ∃ d', Balanced d' (s.step true config a) := by
  rcases step_cases true config s a with heq | ⟨t, value, -, hidle, heq⟩
      | ⟨t, ⟨q, u⟩, prog, prog', -, hcall, hreply, -, heq⟩ | ⟨tx, -, -, heq⟩ | ⟨-, heq⟩ <;> rw [heq]
  · exact ⟨d, h⟩
  · exact ⟨_, h.start_call hidle config value⟩
  · cases q with
    | ask q => exact ⟨_, h.move_ask hcall hreply⟩
    | note n => exact ⟨_, h.move_note hcall hreply⟩
  · exact ⟨d, h.call, h.free, h.sent, h.simulated, h.broadcast, h.slept, h.agrees⟩
  · exact ⟨d, h.call, h.free, h.sent, h.simulated, h.broadcast, h.slept, h.agrees⟩

theorem balanced_run (config : Config) (count : Nat) (as : List Action) :
    ∃ d, Balanced d (run (step true config) (start count) as) :=
  run_invariant (step true config) (I := fun s : Metered => ∃ d, Balanced d s)
    (P := fun _ _ => True) (fun _ a h _ => h.elim fun _ hd => hd.step config a)
    ⟨_, balanced_start count⟩ (along_true _ _ as)

/-- What the debts of a kind can come to. -/
theorem both_le_inCall {w : Debt → Nat} {d : Submitter → Debt} (hone : ∀ d, w d ≤ 1)
    (hidle : ∀ t, s.Idle t = true → w (d t) = 0) : both w d ≤ s.inCall := by
  have htask : ∀ t, w (d t) ≤ if (!s.Idle t) = true then 1 else 0 := by
    intro t
    cases h : s.Idle t with
    | true => exact (hidle t h).le
    | false => exact hone (d t)
  have hexecutor := htask .executor
  have hpoller := htask .poller
  unfold both inCall
  rw [List.countP_cons, List.countP_cons, List.countP_nil]
  omega

/-- What the counters tell of what the tasks did. -/
structure Told (s : Metered) : Prop where
  sent : s.metrics.transactionsSent
    = s.metrics.transactionsSuccessful + s.metrics.transactionsFailed
  successful : s.metrics.transactionsSuccessful = s.results.countP (·.isOk)
  /-- `transactions_sent` are the successful simulations, at most one behind for
  each call in progress. -/
  simulated : s.metrics.transactionsSent ≤ s.answered.countP simulates
    ∧ s.answered.countP simulates ≤ s.metrics.transactionsSent + s.inCall
  broadcast : s.broadcast.length ≤ s.answered.countP simulates
  /-- `tx_send_fail_fast` are the delays, at most one ahead for each call in
  progress. -/
  slept : s.answered.countP sleeps ≤ s.metrics.txSendFailFast
    ∧ s.metrics.txSendFailFast ≤ s.answered.countP sleeps + s.inCall
  /-- The error counters count what the calls returned, each error once and by
  its kind. -/
  errors : ∀ n, errorCount s.metrics n = s.results.countP (countedBy n)

/-- **What the counters tell**: in every interleaving of the two tasks and the
chain, at every moment. Once no call is in progress `transactions_sent` is the
number of simulations that succeeded, sent to the node or not, and no less than
the broadcasts. -/
theorem told_run (config : Config) (count : Nat) (as : List Action) :
    Told (run (step true config) (start count) as) := by
  obtain ⟨d, h⟩ := balanced_run config count as
  have hrecorded := both_le_inCall (w := Debt.unrecorded)
    (fun d => by cases d <;> simp [Debt.unrecorded]) fun t ht => (h.idle ht).1
  have hslept := both_le_inCall (w := Debt.unslept)
    (fun d => by cases d <;> simp [Debt.unslept]) fun t ht => (h.idle ht).2.2
  have hsim := h.simulated
  have hbroadcast := h.broadcast
  have hfast := h.slept
  refine ⟨h.sent, h.agrees.successful, ?_, ?_, ?_, h.agrees.errors⟩
  · omega
  · omega
  · omega

/-- A transaction over the gas limit is refused after its simulation: it counts
as sent, and nothing was broadcast. -/
example :
    let tx : Option U256 → Eip1559Transaction := sampleTx 0
    let s := run (step true sampleConfig) (start 0) (.call .executor 10 ::
      ([⟨.ask .estimateEip1559Fees, .ok (2, 1)⟩, ⟨.ask (.getTransactionCount 9), .ok 0⟩,
        ⟨.ask (.fillTransaction (tx none)), .ok (some 300000)⟩,
        ⟨.ask (.call (tx (some 450000))), .ok ()⟩, ⟨.note (.recordTransaction false none), ()⟩,
        ⟨.note .recordTxErrorGasLimit, ()⟩] : List Move).map (.reply .executor))
    s.metrics.transactionsSent = 1 ∧ s.broadcast = []
      ∧ s.results = [.error (.gasLimitError 450000)] := ⟨rfl, rfl, rfl⟩

end Metered

end WorldIDBridge.Service
