import WorldIDBridge.Lib.Checked
import WorldIDBridge.Types

/-!
# The Starknet core's messaging contract

`sendMessageToL2` appends a message to the pipe the sequencer reads: it
takes a fee, gives the message the next nonce, logs it, and marks it
pending under its hash. The hash of a message is the message itself here,
since the source's hash covers every field of it.
-/

namespace WorldIDBridge.L1

open Checked

/-- Why a call of the two L1 contracts reverts. `externalCall` is a revert
of a contract outside this repository. -/
inductive Revert where
  | callValue
  | ownableUnauthorizedAccount
  | addressZero
  | feeLimitZero
  | exceededFeeLimit
  | l1MsgFeeMustBeGreaterThanZero
  | maxL1MsgFeeExceeded
  | externalCall
  deriving DecidableEq, Repr

/-- The caller of a function and the wei it attaches. -/
structure Msg where
  sender : EthAddress
  value : U256
  deriving DecidableEq, Repr

/-- `1 ether`, in wei. -/
def ether : Nat := 10 ^ 18

/-- `LogMessageToL2`: what the sequencer sees of a message. -/
structure LogMessageToL2 where
  fromAddress : EthAddress
  toAddress : U256
  selector : U256
  payload : List U256
  nonce : Nat
  fee : U256
  deriving DecidableEq, Repr

namespace StarknetMessaging

/-- What `getL1ToL2MsgHash` hashes. -/
structure MsgHash where
  fromAddress : EthAddress
  toAddress : U256
  nonce : Nat
  selector : U256
  payload : List U256
  deriving DecidableEq, Repr

/-- The message map holds the fee plus one of a pending message, zero
otherwise. The nonce would need `2 ^ 256` messages to overflow. -/
structure Storage where
  l1ToL2MessageNonce : Nat
  l1ToL2Messages : MsgHash → U256

/-- `getMaxL1MsgFee()`. -/
def maxL1MsgFee : U256 := BitVec.ofNat 256 ether

def sendMessageToL2 (self : Storage) (msg : Msg) (toAddress selector : U256)
    (payload : List U256) : Except Revert (Storage × LogMessageToL2) := do
  assert (msg.value > 0) .l1MsgFeeMustBeGreaterThanZero
  assert (msg.value ≤ maxL1MsgFee) .maxL1MsgFeeExceeded
  let nonce := self.l1ToL2MessageNonce
  let msgHash : MsgHash := ⟨msg.sender, toAddress, nonce, selector, payload⟩
  return (⟨nonce + 1, fun h => if h = msgHash then msg.value + 1 else self.l1ToL2Messages h⟩,
    ⟨msg.sender, toAddress, selector, payload, nonce, msg.value⟩)

/-- The fees `sendMessageToL2` takes. -/
def FeeAccepted (value : U256) : Prop := 0 < value ∧ value ≤ maxL1MsgFee

instance (value : U256) : Decidable (FeeAccepted value) :=
  inferInstanceAs (Decidable (_ ∧ _))

/-- The storage after a message is sent. -/
def afterSend (self : Storage) (log : LogMessageToL2) : Storage :=
  ⟨self.l1ToL2MessageNonce + 1, fun h =>
    if h = ⟨log.fromAddress, log.toAddress, log.nonce, log.selector, log.payload⟩
      then log.fee + 1 else self.l1ToL2Messages h⟩

theorem sendMessageToL2_eq_ok {self : Storage} {msg : Msg} {toAddress selector : U256}
    {payload : List U256} {r : Storage × LogMessageToL2} :
    sendMessageToL2 self msg toAddress selector payload = .ok r
      ↔ FeeAccepted msg.value
        ∧ r.2 = ⟨msg.sender, toAddress, selector, payload, self.l1ToL2MessageNonce,
            msg.value⟩
        ∧ r.1 = afterSend self r.2 := by
  rw [sendMessageToL2, assert_bind_eq_ok, assert_bind_eq_ok, pure_eq_ok,
    Except.ok.injEq, FeeAccepted, and_assoc, gt_iff_lt]
  obtain ⟨s, log⟩ := r
  constructor
  · rintro ⟨hpos, hle, heq⟩
    obtain ⟨rfl, rfl⟩ := Prod.mk.inj heq
    exact ⟨hpos, hle, rfl, rfl⟩
  · rintro ⟨hpos, hle, rfl, hs⟩
    simp only at hs
    exact ⟨hpos, hle, hs ▸ rfl⟩

end StarknetMessaging

end WorldIDBridge.L1
