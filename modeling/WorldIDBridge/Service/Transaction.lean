import WorldIDBridge.Service.Requests

/-!
# Filling, signing and sending a transaction

The functions of the relayer's transaction module. A `?` of the source is
the bind of the error monad, an `unwrap` is `Prog.unwrap`, which panics.
-/

namespace WorldIDBridge.Service

open Prog

/-- `DEFAULT_GAS_LIMIT`. -/
def defaultGasLimit : U256 := 300000

def checkGasLimit (setGas : U256) : Bool := setGas ≤ defaultGasLimit

def fillAndSimulateEip1559Transaction (calldata : List U8) (toAddress fromAddress : EthAddress)
    (chainId : U64) (value : U256) : ExceptT TransactionError Task Eip1559Transaction := do
  let (maxFeePerGas, maxPriorityFeePerGas) ← mapErr .middlewareError (request .estimateEip1559Fees)
  let nonce ← ExceptT.lift do
    let count : Except MiddlewareError U256 ← request (.getTransactionCount fromAddress)
    unwrap count.toOption
  let tx : Eip1559Transaction :=
    { fromAddress, toAddress, data := calldata, chainId, maxPriorityFeePerGas, maxFeePerGas, value,
      nonce, gas := none }
  let gas ← mapErr .middlewareError (request (.fillTransaction tx))
  -- 150% of what the node filled in
  let gas ← ExceptT.lift (unwrap gas)
  let product ← ExceptT.lift (unwrap (mulU256? gas 150))
  let tx := { tx with gas := some (product / 100) }
  mapErr .middlewareError (request (.call tx))
  return tx

def waitForTxReceipt (pendingTx : Eip1559Transaction) (blockConfirmations : Nat) :
    ExceptT TransactionError Task TransactionReceipt := do
  match ← mapErr .providerError (request (.awaitReceipt pendingTx blockConfirmations)) with
  | some txReceipt => return txReceipt
  | none => throw (.txReceiptNotFound pendingTx)

def signAndSendTransaction (tx : Eip1559Transaction) (blockConfirmations : Nat) :
    ExceptT TransactionError Task TransactionReceipt := do
  mapErr .walletError (request (.signTransaction tx))
  let sent : Except MiddlewareError Unit ← ExceptT.lift (request (.sendRawTransaction tx))
  match sent with
  | .ok () => waitForTxReceipt tx blockConfirmations
  | .error err =>
      if contains err.display "insufficient funds" then throw .insufficientWalletFunds
      else throw (.middlewareError err)

end WorldIDBridge.Service
