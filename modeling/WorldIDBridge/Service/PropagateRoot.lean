import WorldIDBridge.Service.Transaction

/-!
# propagate_root and its retries

One call of `propagate_root` is one attempt to get a `propagateRoot`
transaction included; `propagate_root_with_retry` makes up to three
attempts, as long as the errors are of the kinds `is_fast_fail` lists.
-/

namespace WorldIDBridge.Service

open Prog

/-- What `propagate_root` reads of the configuration. -/
structure Config where
  l1BridgeAddress : EthAddress
  walletAddress : EthAddress
  chainId : U64
  blockConfirmations : Nat
  deriving DecidableEq, Repr

/-- The call data of `propagateRoot()`: its selector. -/
def propagateRootCalldata : List U8 := [0x38, 0x0d, 0xb8, 0x29]

def propagateRoot (config : Config) (value : U256) : ExceptT StateBridgeError Task Unit := do
  let tx ← mapErr .transactionError (fillAndSimulateEip1559Transaction propagateRootCalldata
    config.l1BridgeAddress config.walletAddress config.chainId value).run
  let gasLimit ← ExceptT.lift (unwrap tx.gas)
  if checkGasLimit gasLimit then do
    let receipt ← mapErr .transactionError
      (signAndSendTransaction tx config.blockConfirmations).run
    match receipt.gasUsed with
    | some gasUsed => let _ ← ExceptT.lift (unwrap (asU64? gasUsed))
    | none => pure ()
  else throw (.gasLimitError gasLimit)

/-- The errors that are retried. -/
def isFastFail : StateBridgeError → Bool
  | .providerError _ => true
  | .transactionError (.middlewareError _) => true
  | .transactionError (.providerError _) => true
  | _ => false

/-- The delays before the second and the third attempt, in seconds. -/
def retryDelays : List Nat := [1, 2]

/-- The retry loop, with the delays not used yet. -/
def retryLoop (config : Config) (value : U256) : List Nat → Task (Except StateBridgeError Unit)
  | [] => (propagateRoot config value).run
  | delay :: delays => (propagateRoot config value).run.bind fun
      | .ok () => ret (.ok ())
      | .error err =>
          if isFastFail err then (request (.sleep delay)).bind fun _ => retryLoop config value delays
          else ret (.error err)

def propagateRootWithRetry (config : Config) (value : U256) :
    Task (Except StateBridgeError Unit) := retryLoop config value retryDelays

end WorldIDBridge.Service
