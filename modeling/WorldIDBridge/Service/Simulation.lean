import WorldIDBridge.Lib.Outcome
import WorldIDBridge.Service.Submitters

/-!
# Nothing is broadcast unsimulated

A transaction is handed to the node only right after the same attempt asked
for the fees, read the nonce, had the gas filled in, simulated it and signed
it, each with success, and unchanged in between. That holds of a call on its
own, with its retries, and of the two tasks together: whatever the executor
and the poller broadcast in any interleaving was simulated by the task that
broadcasts it.
-/

namespace WorldIDBridge.Service

open Prog TransitionRun

/-! ## One call -/

/-- What the node answered to an attempt. -/
structure Answers where
  maxFeePerGas : U256
  maxPriorityFeePerGas : U256
  nonce : U256
  gas : U256
  deriving DecidableEq, Repr

namespace Answers

variable (config : Config) (value : U256) (a : Answers)

/-- The transaction whose gas is to be filled in. -/
def unfilled : Eip1559Transaction :=
  { fromAddress := config.walletAddress, toAddress := config.l1BridgeAddress,
    data := propagateRootCalldata, chainId := config.chainId,
    maxPriorityFeePerGas := a.maxPriorityFeePerGas, maxFeePerGas := a.maxFeePerGas, value,
    nonce := a.nonce, gas := none }

/-- The transaction of the attempt, with half as much gas again. -/
def transaction : Eip1559Transaction :=
  { a.unfilled config value with gas := some (a.gas * 150 / 100) }

/-- The exchanges up to the simulation. -/
def simulation : Trace :=
  [⟨.estimateEip1559Fees, .ok (a.maxFeePerGas, a.maxPriorityFeePerGas)⟩,
    ⟨.getTransactionCount config.walletAddress, .ok a.nonce⟩,
    ⟨.fillTransaction (a.unfilled config value), .ok (some a.gas)⟩,
    ⟨.call (a.transaction config value), .ok ()⟩]

/-- The gas is within the limit of the source, without an overflow on the way. -/
def Affordable : Prop := a.gas.toNat * 150 < 2 ^ 256 ∧ a.gas * 150 / 100 ≤ defaultGasLimit

end Answers

/-- The transaction was just simulated. -/
def Simulated (config : Config) (value : U256) (before : Trace) (tx : Eip1559Transaction) :
    Prop :=
  ∃ a earlier, a.gas.toNat * 150 < 2 ^ 256 ∧ tx = Answers.transaction config value a
    ∧ before = earlier ++ a.simulation config value

/-- The transaction was just simulated within the gas limit, and signed. -/
def Vetted (config : Config) (value : U256) (before : Trace) (tx : Eip1559Transaction) : Prop :=
  ∃ a earlier, a.Affordable ∧ tx = Answers.transaction config value a
    ∧ before = earlier ++ a.simulation config value ++ [⟨.signTransaction tx, .ok ()⟩]

/-- What a call may ask for after what it was answered: only a vetted
transaction is sent, and only a transaction just sent is waited for. -/
def discipline (config : Config) (value : U256) (before : Trace) : Request → Prop
  | .sendRawTransaction tx => Vetted config value before tx
  | .awaitReceipt tx blockConfirmations =>
      before.getLast? = some ⟨.sendRawTransaction tx, .ok ()⟩
        ∧ blockConfirmations = config.blockConfirmations
  | _ => True

variable {config : Config} {value : U256}

theorem mulU256?_eq_some {a b c : U256} :
    mulU256? a b = some c ↔ a.toNat * b.toNat < 2 ^ 256 ∧ c = a * b := by
  rw [mulU256?]
  split
  · rename_i h
    rw [Option.some.injEq, eq_comm (a := c)]
    exact (and_iff_right h).symm
  · rename_i h
    refine iff_of_false ?_ fun hc => h hc.1
    intro hnone
    cases hnone

/-- A transaction that is filled was simulated last. -/
theorem fillAndSimulate_past (before : Trace) :
    (fillAndSimulateEip1559Transaction propagateRootCalldata config.l1BridgeAddress
        config.walletAddress config.chainId value).run.wp (past (discipline config value))
      (fun r after => ∀ tx, r = .ok tx → Simulated config value after tx) before := by
  simp only [fillAndSimulateEip1559Transaction, wp_mapErr_bind, wp_lift_bind]
  refine ⟨trivial, fun fees => ?_⟩
  cases fees with
  | error e =>
      intro tx h
      cases h
  | ok fees =>
      refine ⟨trivial, fun nonce => ?_⟩
      cases nonce with
      | error e => trivial
      | ok nonce =>
          refine ⟨trivial, fun filled => ?_⟩
          cases filled with
          | error e =>
              intro tx h
              cases h
          | ok filled =>
              simp only [wp_ret, wp_unwrap]
              intro gas hgas product hproduct
              obtain rfl := hgas
              obtain ⟨hlt, rfl⟩ := mulU256?_eq_some.mp hproduct
              refine ⟨trivial, fun simulated => ?_⟩
              cases simulated with
              | error e =>
                  intro tx h
                  cases h
              | ok _ =>
                  intro tx h
                  cases h
                  refine ⟨⟨fees.1, fees.2, nonce, gas⟩, before, hlt, rfl, ?_⟩
                  simp [Answers.simulation, Answers.unfilled, Answers.transaction]

/-- Signing and sending takes a transaction that was just simulated, and within
the limit. -/
theorem signAndSendTransaction_past {before : Trace} {tx : Eip1559Transaction}
    (hsimulated : Simulated config value before tx)
    (hgas : ∀ gas, tx.gas = some gas → gas ≤ defaultGasLimit) :
    (signAndSendTransaction tx config.blockConfirmations).run.wp
      (past (discipline config value)) (fun _ _ => True) before := by
  obtain ⟨a, earlier, hlt, rfl, rfl⟩ := hsimulated
  simp only [signAndSendTransaction, wp_mapErr_bind, wp_lift_bind]
  refine ⟨trivial, fun signed => ?_⟩
  cases signed with
  | error e => trivial
  | ok _ =>
      refine ⟨⟨a, earlier, ⟨hlt, hgas _ rfl⟩, rfl, rfl⟩, fun sent => ?_⟩
      cases sent with
      | error e =>
          simp only [wp_ret]
          split <;> trivial
      | ok _ =>
          simp only [wp_ret, waitForTxReceipt, wp_mapErr_bind]
          refine ⟨⟨List.getLast?_concat, rfl⟩, fun awaited => ?_⟩
          cases awaited with
          | error e => trivial
          | ok receipt => cases receipt <;> trivial

theorem propagateRoot_past (before : Trace) :
    (propagateRoot config value).run.wp (past (discipline config value))
      (fun _ _ => True) before := by
  simp only [propagateRoot, wp_mapErr_bind, wp_lift_bind, wp_unwrap]
  refine wp_mono (fillAndSimulate_past before) fun filled after htx => ?_
  cases filled with
  | error e => trivial
  | ok tx =>
      intro gasLimit hgasLimit
      split
      · rename_i hcheck
        have hgas : ∀ gas, tx.gas = some gas → gas ≤ defaultGasLimit := by
          intro gas hgas
          obtain rfl := Option.some.inj (hgasLimit.symm.trans hgas)
          exact decide_eq_true_eq.mp hcheck
        simp only [wp_mapErr_bind]
        refine wp_mono (signAndSendTransaction_past (htx tx rfl) hgas) fun sent _ _ => ?_
        cases sent with
        | error e => trivial
        | ok receipt =>
            simp only
            split
            · simp only [wp_lift_bind, wp_unwrap]
              exact fun _ _ => trivial
            · trivial
      · trivial

/-- Every attempt of a call keeps to the discipline; the induction is on the
delays left. -/
theorem retryLoop_past (config : Config) (value : U256) (delays : List Nat) (before : Trace) :
    (retryLoop config value delays).wp (past (discipline config value))
      (fun _ _ => True) before := by
  induction delays generalizing before with
  | nil => exact propagateRoot_past before
  | cons delay delays ih =>
      rw [retryLoop, wp_bind]
      refine wp_mono (propagateRoot_past before) fun result after _ => ?_
      cases result with
      | ok _ => trivial
      | error err =>
          simp only
          split
          · rw [wp_bind]
            exact ⟨trivial, fun _ => ih _⟩
          · trivial

/-- **A broadcast is the end of a simulation**: in every run of
`propagate_root_with_retry`, whatever the node answers, the five exchanges
before each broadcast are the attempt's own, successful, and about the
transaction that is broadcast, which is made of their answers. -/
theorem broadcast_simulated (config : Config) (value : U256) {before after : Trace}
    {tx : Eip1559Transaction} {sent : Except MiddlewareError Unit}
    {rest : Task (Except StateBridgeError Unit)}
    (h : Performs (propagateRootWithRetry config value)
      (before ++ ⟨.sendRawTransaction tx, sent⟩ :: after) rest) :
    ∃ a earlier, a.Affordable ∧ tx = Answers.transaction config value a
      ∧ before = earlier ++ a.simulation config value ++ [⟨.signTransaction tx, .ok ()⟩] :=
  h.allowed_past (retryLoop_past config value retryDelays [])

theorem broadcast_simulated_sample :
    ∃ a earlier, Answers.Affordable a
      ∧ sampleTx 0 (some 90000) = Answers.transaction sampleConfig 10 a
      ∧ (sampleTrace 1).take 5
        = earlier ++ a.simulation sampleConfig 10
          ++ [⟨.signTransaction (sampleTx 0 (some 90000)), .ok ()⟩] := by
  have hrun : Performs (propagateRootWithRetry sampleConfig 10) (sampleTrace 1)
      (ret (.ok ())) := .of_replay? rfl
  exact broadcast_simulated sampleConfig 10 hrun

/-! ## The two tasks together -/

namespace Submitters

/-- The task was answered that exchange. -/
def Answered (t : Submitter) (x : Exchange Request Response) (s : Submitters) (a : Action) :
    Prop :=
  a = .reply t x ∧ ∃ prog prog', s.calls t = some prog ∧ prog.reply? x = some prog'

/-- The exchange was made by the task before the end of the run. -/
def Made (config : Config) (s₀ : Submitters) (as : List Action) (t : Submitter)
    (x : Exchange Request Response) : Prop :=
  Earlier (step config) (Answered t x) s₀ as

/-- A call in progress keeps to the discipline after what it was answered. -/
def Disciplined (config : Config) (s₀ : Submitters) (as : List Action) (t : Submitter)
    (prog : Task (Except StateBridgeError Unit)) : Prop :=
  ∃ value before, prog.wp (past (discipline config value)) (fun _ _ => True) before
    ∧ ∀ x ∈ before, Made config s₀ as t x

/-- The transaction was simulated and signed by a task. -/
def SimulatedBy (config : Config) (s₀ : Submitters) (as : List Action)
    (tx : Eip1559Transaction) : Prop :=
  ∃ t value a, Answers.Affordable a ∧ tx = a.transaction config value
    ∧ ∀ x ∈ a.simulation config value ++ [⟨.signTransaction tx, .ok ()⟩],
      Made config s₀ as t x

variable {config : Config} {s₀ : Submitters} {as : List Action}

theorem Made.snoc {t : Submitter} {x : Exchange Request Response}
    (h : Made config s₀ as t x) (a : Action) : Made config s₀ (as ++ [a]) t x :=
  Earlier.snoc _ h a

theorem Disciplined.snoc {t : Submitter} {prog : Task (Except StateBridgeError Unit)}
    (h : Disciplined config s₀ as t prog) (a : Action) :
    Disciplined config s₀ (as ++ [a]) t prog := by
  obtain ⟨value, before, hwp, hmade⟩ := h
  exact ⟨value, before, hwp, fun x hx => (hmade x hx).snoc a⟩

theorem SimulatedBy.snoc {tx : Eip1559Transaction} (h : SimulatedBy config s₀ as tx)
    (a : Action) : SimulatedBy config s₀ (as ++ [a]) tx := by
  obtain ⟨t, value, answers, hafford, htx, hmade⟩ := h
  exact ⟨t, value, answers, hafford, htx, fun x hx => (hmade x hx).snoc a⟩

/-- An answer to a disciplined call: what it sends was simulated, and the rest
keeps to the discipline. -/
theorem Disciplined.reply {t : Submitter} {prog prog' : Task (Except StateBridgeError Unit)}
    {x : Exchange Request Response} (h : Disciplined config s₀ as t prog)
    (hcall : (run (step config) s₀ as).calls t = some prog)
    (hreply : prog.reply? x = some prog') :
    Disciplined config s₀ (as ++ [.reply t x]) t prog'
      ∧ ∀ tx ∈ sentIn x, SimulatedBy config s₀ (as ++ [.reply t x]) tx := by
  obtain ⟨value, before, hwp, hmade⟩ := h
  obtain ⟨hallowed, hnext⟩ := wp_of_reply? hwp hreply
  have hlast : Made config s₀ (as ++ [.reply t x]) t x :=
    .last _ ⟨rfl, prog, prog', hcall, hreply⟩
  refine ⟨⟨value, _, hnext, fun y hy => ?_⟩, fun tx htx => ?_⟩
  · rcases List.mem_append.mp hy with hold | hnew
    · exact (hmade y hold).snoc _
    · rw [List.mem_singleton.mp hnew]
      exact hlast
  · obtain ⟨q, answer⟩ := x
    cases q with
    | sendRawTransaction sent =>
        obtain rfl := List.mem_singleton.mp htx
        obtain ⟨a, earlier, hafford, heq, hbefore⟩ := hallowed
        refine ⟨t, value, a, hafford, heq, fun y hy => (hmade y ?_).snoc _⟩
        rw [hbefore, List.append_assoc]
        exact List.mem_append_right earlier hy
    | _ => cases htx

/-- **Across any interleaving, what is broadcast was simulated**: each
transaction of the service was filled, simulated with success, within the gas
limit, and signed by one of the two tasks. -/
theorem broadcast_simulated_run (config : Config) (count : Nat) (as : List Action) :
    ∀ tx ∈ (run (step config) (start count) as).broadcast,
      SimulatedBy config (start count) as tx := by
  refine (run_history_invariant (step config) (s := start count) (P := fun _ _ => True)
    (I := fun as s => (∀ t prog, s.calls t = some prog →
        Disciplined config (start count) as t prog)
      ∧ ∀ tx ∈ s.broadcast, SimulatedBy config (start count) as tx)
    ?_ ?_ (along_true _ _ as)).2
  · constructor
    · intro t prog h
      cases h
    · intro tx h
      cases h
  intro as a ih _
  obtain ⟨hcalls, hsent⟩ := ih
  rcases step_cases config (run (step config) (start count) as) a with heq | ⟨t, value, heq⟩
      | ⟨t, x, prog, prog', rfl, hcall, hreply, heq⟩ | ⟨tx, heq⟩ | heq <;> rw [heq]
  · exact ⟨fun t prog h => (hcalls t prog h).snoc a, fun tx h => (hsent tx h).snoc a⟩
  · -- a call just made has asked for nothing
    refine ⟨fun t' prog h => ?_, fun tx h => (hsent tx h).snoc a⟩
    by_cases ht : t' = t
    · subst ht
      simp only [Function.update_self, Option.some.injEq] at h
      subst h
      refine ⟨value, [], retryLoop_past config value retryDelays [], fun x hx => ?_⟩
      cases hx
    · simp only [Function.update_of_ne ht] at h
      exact (hcalls t' prog h).snoc a
  · obtain ⟨hnext, hnew⟩ := (hcalls t prog hcall).reply hcall hreply
    refine ⟨fun t' q h => ?_, fun tx h => ?_⟩
    · by_cases ht : t' = t
      · subst ht
        simp only [Function.update_self, Option.some.injEq] at h
        subst h
        exact hnext
      · simp only [Function.update_of_ne ht] at h
        exact (hcalls t' q h).snoc _
    · rcases List.mem_append.mp h with hin | hold
      · exact hnew tx hin
      · exact (hsent tx hold).snoc _
  · exact ⟨fun t prog h => (hcalls t prog h).snoc a, fun tx h => (hsent tx h).snoc a⟩
  · exact ⟨fun t prog h => (hcalls t prog h).snoc a, fun tx h => (hsent tx h).snoc a⟩

/-- Two transactions of two tasks under one nonce: the poller's was simulated too. -/
theorem broadcast_simulated_run_sample :
    SimulatedBy sampleConfig (start 0)
      ([.call .poller 10, .call .executor 11] ++ upToSend .poller 10 0
        ++ upToSend .executor 11 0)
      (sampleTx 0 (some 90000)) := by
  have hsent : (run (step sampleConfig) (start 0)
      ([.call .poller 10, .call .executor 11] ++ upToSend .poller 10 0
        ++ upToSend .executor 11 0)).broadcast
      = [{ sampleTx 0 (some 90000) with value := 11 }, sampleTx 0 (some 90000)] := rfl
  refine broadcast_simulated_run sampleConfig 0 _ (sampleTx 0 (some 90000)) ?_
  rw [hsent]
  exact List.mem_cons_of_mem _ (List.mem_singleton_self _)

end Submitters

end WorldIDBridge.Service
