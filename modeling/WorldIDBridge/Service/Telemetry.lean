import WorldIDBridge.Lib.Noted
import WorldIDBridge.Service.PropagateRoot

/-!
# Telemetry of the propagations

With telemetry enabled, `propagate_root` and `propagate_root_with_retry`
record what they come to in counters that the executor and the poller share.
Each `record_*` is a note here. The module says that the notes change
nothing of a call: its runs with telemetry are, but for the notes, its runs
without. Durations are left out.
-/

namespace WorldIDBridge.Service

open Prog

/-! ## The counters -/

/-- The transaction metrics. A counter is a number, `gas_used` the values
recorded, newest first. -/
structure Metrics where
  transactionsSent : Nat
  transactionsSuccessful : Nat
  transactionsFailed : Nat
  gasUsed : List U64
  txSendFailFast : Nat
  txReceiptFailures : Nat
  txErrorInsufficientFunds : Nat
  txErrorProvider : Nat
  txErrorMiddleware : Nat
  txErrorGasLimit : Nat
  deriving DecidableEq, Repr

/-- What a call tells the metrics. -/
inductive Note where
  | recordTransaction (success : Bool) (gasUsed : Option U64)
  | recordTxSendFailFast
  | recordTxReceiptFailure
  | recordTxErrorInsufficientFunds
  | recordTxErrorProvider
  | recordTxErrorMiddleware
  | recordTxErrorGasLimit
  deriving DecidableEq, Repr

namespace Metrics

def new : Metrics := ⟨0, 0, 0, [], 0, 0, 0, 0, 0, 0⟩

def recordTransaction (m : Metrics) (success : Bool) (gasUsed : Option U64) : Metrics :=
  let m := { m with transactionsSent := m.transactionsSent + 1 }
  let m :=
    if success then { m with transactionsSuccessful := m.transactionsSuccessful + 1 }
    else { m with transactionsFailed := m.transactionsFailed + 1 }
  match gasUsed with
  | some gas => { m with gasUsed := gas :: m.gasUsed }
  | none => m

def record (m : Metrics) : Note → Metrics
  | .recordTransaction success gasUsed => m.recordTransaction success gasUsed
  | .recordTxSendFailFast => { m with txSendFailFast := m.txSendFailFast + 1 }
  | .recordTxReceiptFailure => { m with txReceiptFailures := m.txReceiptFailures + 1 }
  | .recordTxErrorInsufficientFunds =>
      { m with txErrorInsufficientFunds := m.txErrorInsufficientFunds + 1 }
  | .recordTxErrorProvider => { m with txErrorProvider := m.txErrorProvider + 1 }
  | .recordTxErrorMiddleware => { m with txErrorMiddleware := m.txErrorMiddleware + 1 }
  | .recordTxErrorGasLimit => { m with txErrorGasLimit := m.txErrorGasLimit + 1 }

end Metrics

/-! ## The calls with telemetry -/

namespace Telemetry

/-- The relayer's functions, with what they tell the metrics. -/
abbrev MeteredTask := WithNotes Request Note Response

/-- `if let Some(metrics) = &self.metrics`, with one record. -/
def record (metrics : Bool) (n : Note) : MeteredTask Unit :=
  if metrics then ask (Noted.note n) else ret ()

/-- The `result` of a transaction that was simulated, with the gas it used. -/
def submit (config : Config) (tx : Eip1559Transaction) (gasLimit : U256) :
    Task (Except StateBridgeError Unit × Option U64) :=
  if checkGasLimit gasLimit then
    (signAndSendTransaction tx config.blockConfirmations).run.bind fun
      | .ok receipt =>
          match receipt.gasUsed with
          | some gasUsed => (unwrap (asU64? gasUsed)).bind fun gas => ret (.ok (), some gas)
          | none => ret (.ok (), none)
      | .error e => ret (.error (.transactionError e), none)
  else ret (.error (.gasLimitError gasLimit), none)

def propagateRoot (metrics : Bool) (config : Config) (value : U256) :
    ExceptT StateBridgeError MeteredTask Unit := do
  let tx ← mapErr .transactionError
    (fillAndSimulateEip1559Transaction propagateRootCalldata config.l1BridgeAddress
      config.walletAddress config.chainId value).run.quiet
  let gasLimit ← ExceptT.lift (unwrap tx.gas)
  let submitted ← ExceptT.lift (submit config tx gasLimit).quiet
  ExceptT.lift (record metrics (.recordTransaction submitted.1.isOk submitted.2))
  ExceptT.mk (ret submitted.1)

def recordTxError (metrics : Bool) : StateBridgeError → MeteredTask Unit
  | .transactionError .insufficientWalletFunds => record metrics .recordTxErrorInsufficientFunds
  | .transactionError (.providerError _) => record metrics .recordTxErrorProvider
  | .providerError _ => record metrics .recordTxErrorProvider
  | .transactionError (.middlewareError _) => record metrics .recordTxErrorMiddleware
  | .gasLimitError _ => record metrics .recordTxErrorGasLimit
  | _ => ret ()

/-- The test for a missing receipt before the error is recorded. -/
def recordReceiptFailure (metrics : Bool) : StateBridgeError → MeteredTask Unit
  | .transactionError (.txReceiptNotFound _) => record metrics .recordTxReceiptFailure
  | _ => ret ()

/-- The end of a call that is not tried again. -/
def giveUp (metrics : Bool) (err : StateBridgeError) :
    MeteredTask (Except StateBridgeError Unit) :=
  (recordReceiptFailure metrics err).bind fun _ =>
    (recordTxError metrics err).bind fun _ => ret (.error err)

/-- The retry loop, with the delays not used yet. -/
def retryLoop (metrics : Bool) (config : Config) (value : U256) :
    List Nat → MeteredTask (Except StateBridgeError Unit)
  | [] => (propagateRoot metrics config value).run.bind fun
      | .ok () => ret (.ok ())
      | .error err => giveUp metrics err
  | delay :: delays => (propagateRoot metrics config value).run.bind fun
      | .ok () => ret (.ok ())
      | .error err =>
          if isFastFail err then
            (record metrics .recordTxSendFailFast).bind fun _ =>
              (ask (Noted.ask (.sleep delay))).bind fun _ => retryLoop metrics config value delays
          else giveUp metrics err

def propagateRootWithRetry (metrics : Bool) (config : Config) (value : U256) :
    MeteredTask (Except StateBridgeError Unit) := retryLoop metrics config value retryDelays

/-! ## Without the notes -/

variable (metrics : Bool) (config : Config) (value : U256)

@[simp] theorem erase_record (n : Note) : (record metrics n).erase = ret () := by
  cases metrics <;> rfl

@[simp] theorem erase_giveUp (err : StateBridgeError) :
    (giveUp metrics err).erase = ret (.error err) := by
  have hreceipt : (recordReceiptFailure metrics err).erase = ret () := by
    unfold recordReceiptFailure
    split <;> simp
  have herror : (recordTxError metrics err).erase = ret () := by
    unfold recordTxError
    split <;> simp
  rw [giveUp, erase_bind, hreceipt]
  show Prog.erase _ = _
  rw [erase_bind, herror]
  rfl

/-- What is submitted comes to the result of the plain attempt. -/
theorem submit_bind (tx : Eip1559Transaction) (gasLimit : U256) :
    (submit config tx gasLimit).bind (fun s => ret s.1)
      = (if checkGasLimit gasLimit then do
          let receipt ← mapErr .transactionError
            (signAndSendTransaction tx config.blockConfirmations).run
          match receipt.gasUsed with
          | some gasUsed => let _ ← ExceptT.lift (unwrap (asU64? gasUsed))
          | none => pure ()
        else throw (.gasLimitError gasLimit) : ExceptT StateBridgeError Task Unit).run := by
  unfold submit
  split
  · rw [run_bind, mapErr, ExceptT.run_mk, bind_assoc, bind_assoc]
    congr 1
    funext r
    cases r with
    | error e => rfl
    | ok receipt =>
        obtain ⟨status, gasUsed⟩ := receipt
        cases gasUsed with
        | none => rfl
        | some gasUsed =>
            simp only [Except.mapError, Prog.bind]
            generalize asU64? gasUsed = gas
            cases gas <;> rfl
  · rfl

theorem erase_propagateRoot :
    (propagateRoot metrics config value).run.erase
      = (Service.propagateRoot config value).run := by
  rw [propagateRoot, Service.propagateRoot, erase_run_bind, erase_mapErr, erase_quiet, run_bind]
  congr 1
  funext filled
  cases filled with
  | error e => rfl
  | ok tx =>
      simp only [erase_run_bind, erase_lift, erase_unwrap]
      rw [run_bind]
      congr 1
      funext gasLimit
      cases gasLimit with
      | error e => rfl
      | ok gasLimit =>
          refine Eq.trans ?_ (submit_bind config tx gasLimit)
          simp only [erase_quiet]
          show Prog.bind (Prog.bind _ _) _ = _
          rw [bind_assoc]
          congr 1
          funext submitted
          cases metrics <;> rfl

/-- The retry loop without its notes. -/
theorem erase_retryLoop (delays : List Nat) :
    (retryLoop metrics config value delays).erase = Service.retryLoop config value delays := by
  induction delays with
  | nil =>
      rw [retryLoop, Service.retryLoop, erase_bind, erase_propagateRoot]
      refine (congrArg _ (funext fun r => ?_)).trans (bind_ret _)
      cases r with
      | ok _ => rfl
      | error err => exact erase_giveUp metrics err
  | cons delay delays ih =>
      rw [retryLoop, Service.retryLoop, erase_bind, erase_propagateRoot]
      congr 1
      funext r
      cases r with
      | ok _ => rfl
      | error err =>
          simp only
          split
          · rw [erase_bind, erase_record]
            show call (Request.sleep delay) _ = call (Request.sleep delay) _
            congr 1
            funext _
            exact ih
          · exact erase_giveUp metrics err

theorem erase_propagateRootWithRetry :
    (propagateRootWithRetry metrics config value).erase
      = Service.propagateRootWithRetry config value := erase_retryLoop metrics config value _

/-- **One call**: its runs to a result without telemetry are its runs with
telemetry, less the notes. -/
theorem propagateRootWithRetry_runs (tr : Trace) (r : Except StateBridgeError Unit) :
    Performs (Service.propagateRootWithRetry config value) tr (ret r)
      ↔ ∃ tr', Performs (propagateRootWithRetry metrics config value) tr' (ret r)
          ∧ tr'.filterMap asked? = tr := by
  rw [← erase_propagateRootWithRetry metrics]
  exact performs_erase_ret_iff

end Telemetry

end WorldIDBridge.Service
