import Mathlib.Data.List.Infix
import WorldIDBridge.Lib.Interaction
import WorldIDBridge.Types

/-!
# What the relayer asks of its nodes

The relayer talks to an L1 node, to its wallet and to the clock. Each
`await` of the source is one request here; what it may yield, errors
included, is the type of the answer. A transaction hash is the signed
transaction itself. Telemetry and logging are left out.
-/

namespace WorldIDBridge.Service

/-! ## Errors -/

/-- `<M as Middleware>::Error`, with what it displays. -/
structure MiddlewareError where
  display : String
  deriving DecidableEq, Repr

/-- `ethers::providers::ProviderError`. -/
structure ProviderError where
  display : String
  deriving DecidableEq, Repr

/-- `ethers::signers::WalletError`. -/
structure WalletError where
  display : String
  deriving DecidableEq, Repr

/-! ## Transactions -/

structure Eip1559Transaction where
  fromAddress : EthAddress
  toAddress : EthAddress
  data : List U8
  chainId : U64
  maxPriorityFeePerGas : U256
  maxFeePerGas : U256
  value : U256
  nonce : U256
  gas : Option U256
  deriving DecidableEq, Repr

/-- The status is 1 for an execution that succeeded, 0 for one that
reverted. -/
structure TransactionReceipt where
  status : Option U64
  gasUsed : Option U256
  deriving DecidableEq, Repr

inductive TransactionError where
  | middlewareError (e : MiddlewareError)
  | providerError (e : ProviderError)
  | walletError (e : WalletError)
  | insufficientWalletFunds
  | txReceiptNotFound (tx : Eip1559Transaction)
  deriving DecidableEq, Repr

inductive StateBridgeError where
  | middlewareError (e : MiddlewareError)
  | providerError (e : ProviderError)
  | transactionError (e : TransactionError)
  | gasLimitError (gasLimit : U256)
  deriving DecidableEq, Repr

/-! ## Requests -/

inductive Request where
  | estimateEip1559Fees
  /-- The transaction count of an account in the latest block. -/
  | getTransactionCount (fromAddress : EthAddress)
  /-- The node fills what the transaction leaves open, its gas. -/
  | fillTransaction (tx : Eip1559Transaction)
  | call (tx : Eip1559Transaction)
  | signTransaction (tx : Eip1559Transaction)
  | sendRawTransaction (tx : Eip1559Transaction)
  /-- `PendingTransaction::await`. -/
  | awaitReceipt (tx : Eip1559Transaction) (blockConfirmations : Nat)
  | sleep (secs : Nat)
  deriving DecidableEq, Repr

/-- What an answer to a request is. -/
@[reducible] def Response : Request → Type
  | .estimateEip1559Fees => Except MiddlewareError (U256 × U256)
  | .getTransactionCount _ => Except MiddlewareError U256
  | .fillTransaction _ => Except MiddlewareError (Option U256)
  | .call _ => Except MiddlewareError Unit
  | .signTransaction _ => Except WalletError Unit
  | .sendRawTransaction _ => Except MiddlewareError Unit
  | .awaitReceipt _ _ => Except ProviderError (Option TransactionReceipt)
  | .sleep _ => Unit

/-- The relayer's asynchronous functions. -/
abbrev Task := Prog Request Response

/-- One request and its answer. -/
def request (q : Request) : Task (Response q) := Prog.ask q

/-- The exchanges of a run. -/
abbrev Trace := List (Prog.Exchange Request Response)

/-! ## Checked integer operations -/

/-- `U256` multiplication, which panics on overflow. -/
def mulU256? (a b : U256) : Option U256 :=
  if a.toNat * b.toNat < 2 ^ 256 then some (a * b) else none

/-- `U256::as_u64`, which panics above `u64::MAX`. -/
def asU64? (a : U256) : Option U64 :=
  if a.toNat < 2 ^ 64 then some (a.setWidth 64) else none

/-- `str::contains`. -/
def contains (s part : String) : Bool := decide (part.toList <:+: s.toList)

end WorldIDBridge.Service
