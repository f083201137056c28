import WorldIDBridge.L1.StarknetMessaging
import WorldIDBridge.Lib.HashedTable
import WorldIDBridge.Lib.Replay
import WorldIDBridge.Lib.TransitionRun

/-!
# The two pipes of the messaging contract

The contract whole, as it stores its messages: under the hash of their
words. Accounts send messages to L2 and may take them back after a delay, and
consume what L2 sent to them. The contract derived from it, which takes
messages out of the one pipe and puts messages into the other, is not part of
the repository: it is a parameter, and `DerivedContract.Documented` is what
is assumed of it.

The storage is compared with what the events say. `Tracks` says that each
table holds what the events of the run wrote, `Allowed` which event may come
next, and one lemma for all functions that a call that succeeds emits an
allowed event and keeps the tables right.
-/

namespace WorldIDBridge.L1.StarknetMessaging.Hashed

open Checked TransitionRun

/-! ## Messages -/

structure L1ToL2Message where
  fromAddress : EthAddress
  toAddress : U256
  selector : U256
  payload : List U256
  nonce : U256
  deriving DecidableEq, Repr

structure L2ToL1Message where
  fromAddress : U256
  toAddress : EthAddress
  payload : List U256
  deriving DecidableEq, Repr

/-- `uint256(uint160(account))`. -/
def word (account : EthAddress) : U256 := account.setWidth 256

/-- What `abi.encodePacked` makes of a message to L2, word by word: the
elements of an array are full words, with no length before them. -/
def L1ToL2Message.words (m : L1ToL2Message) : List U256 :=
  [word m.fromAddress, m.toAddress, m.nonce, m.selector, BitVec.ofNat 256 m.payload.length]
    ++ m.payload

/-- What `abi.encodePacked` makes of a message to L1. -/
def L2ToL1Message.words (m : L2ToL1Message) : List U256 :=
  [m.fromAddress, word m.toAddress, BitVec.ofNat 256 m.payload.length] ++ m.payload

theorem word_inj {a b : EthAddress} (h : word a = word b) : a = b := by
  have hnat := congrArg BitVec.toNat h
  simp only [word, BitVec.toNat_setWidth] at hnat
  apply BitVec.eq_of_toNat_eq
  rwa [Nat.mod_eq_of_lt (by omega), Nat.mod_eq_of_lt (by omega)] at hnat

/-- The words of a message determine it. -/
theorem L1ToL2Message.words_injective : Function.Injective L1ToL2Message.words := by
  intro m m' h
  obtain ⟨sender, toAddr, sel, payload, nonce⟩ := m
  obtain ⟨sender', toAddr', sel', payload', nonce'⟩ := m'
  simp only [words, List.cons_append, List.nil_append, List.cons.injEq] at h
  obtain ⟨ha, hto, hnonce, hsel, -, hpayload⟩ := h
  rw [word_inj ha, hto, hnonce, hsel, hpayload]

theorem L2ToL1Message.words_injective : Function.Injective L2ToL1Message.words := by
  intro m m' h
  obtain ⟨sender, toAddr, payload⟩ := m
  obtain ⟨sender', toAddr', payload'⟩ := m'
  simp only [words, List.cons_append, List.nil_append, List.cons.injEq] at h
  obtain ⟨ha, hto, -, hpayload⟩ := h
  rw [ha, word_inj hto, hpayload]

/-! ## The contract -/

inductive Revert where
  | l1MsgFeeMustBeGreaterThan0
  | maxL1MsgFeeExceeded
  | invalidMessageToConsume
  | noMessageToCancel
  | messageCancellationNotRequested
  | cancelAllowedTimeOverflow
  | messageCancellationNotAllowedYet
  /-- `Panic(0x11)` of the checked arithmetic. -/
  | arithmeticOverflow
  deriving DecidableEq, Repr

inductive Event where
  | logMessageToL2 (message : L1ToL2Message) (fee : U256)
  | messageToL2CancellationStarted (message : L1ToL2Message)
  | messageToL2Canceled (message : L1ToL2Message)
  | consumedMessageToL1 (message : L2ToL1Message)
  /-- Of the contract derived from this one. -/
  | consumedMessageToL2 (message : L1ToL2Message)
  /-- Of the contract derived from this one. -/
  | logMessageToL1 (message : L2ToL1Message)
  deriving DecidableEq, Repr

/-- The five named cells, each at the hash of its own tag. -/
structure Storage where
  l1ToL2Messages : U256 → U256
  l2ToL1Messages : U256 → U256
  l1ToL2MessageNonce : U256
  l1ToL2MessageCancellations : U256 → U256
  messageCancellationDelay : U256

/-- Before the first message. -/
def Storage.initial (messageCancellationDelay : U256) : Storage :=
  ⟨fun _ => 0, fun _ => 0, 0, fun _ => 0, messageCancellationDelay⟩

/-- What a call leaves: the storage, the event emitted and the hash returned. -/
structure Receipt where
  storage : Storage
  event : Event
  msgHash : U256

/-- `a + b`, checked. -/
def checkedAdd (a b : U256) : Except Revert U256 := do
  assert (a.toNat + b.toNat < 2 ^ 256) .arithmeticOverflow
  return a + b

theorem checkedAdd_eq_ok {a b c : U256} :
    checkedAdd a b = .ok c ↔ a.toNat + b.toNat < 2 ^ 256 ∧ c = a + b := by
  rw [checkedAdd, assert_bind_eq_ok, pure_eq_ok, Except.ok.injEq, eq_comm (a := c)]

theorem toNat_add {a b : U256} (h : a.toNat + b.toNat < 2 ^ 256) :
    (a + b).toNat = a.toNat + b.toNat := by
  rw [BitVec.toNat_add, Nat.mod_eq_of_lt h]

/-- The hash of a word sequence. -/
abbrev Keccak := List U256 → U256

variable (keccak256 : Keccak)

/-- `getL1ToL2MsgHash`, with the caller as an argument. -/
def getL1ToL2MsgHash (m : L1ToL2Message) : U256 := keccak256 m.words

def l2ToL1MsgHash (m : L2ToL1Message) : U256 := keccak256 m.words

variable (self : Storage)

/-- The contract's `sendMessageToL2`; it returns the nonce as well. -/
def sendMessageToL2 (msg : Msg) (toAddress selector : U256) (payload : List U256) :
    Except Revert (Receipt × U256) := do
  assert (msg.value > 0) .l1MsgFeeMustBeGreaterThan0
  assert (msg.value ≤ maxL1MsgFee) .maxL1MsgFeeExceeded
  let nonce := self.l1ToL2MessageNonce
  let nextNonce ← checkedAdd nonce 1
  let message : L1ToL2Message := ⟨msg.sender, toAddress, selector, payload, nonce⟩
  let msgHash := getL1ToL2MsgHash keccak256 message
  let msgFeePlusOne ← checkedAdd msg.value 1
  let storage := { self with
    l1ToL2MessageNonce := nextNonce
    l1ToL2Messages := Function.update self.l1ToL2Messages msgHash msgFeePlusOne }
  return (⟨storage, .logMessageToL2 message msg.value, msgHash⟩, nonce)

def consumeMessageFromL2 (sender : EthAddress) (fromAddress : U256) (payload : List U256) :
    Except Revert Receipt := do
  let message : L2ToL1Message := ⟨fromAddress, sender, payload⟩
  let msgHash := l2ToL1MsgHash keccak256 message
  assert (self.l2ToL1Messages msgHash > 0) .invalidMessageToConsume
  let storage := { self with
    l2ToL1Messages :=
      Function.update self.l2ToL1Messages msgHash (self.l2ToL1Messages msgHash - 1) }
  return ⟨storage, .consumedMessageToL1 message, msgHash⟩

def startL1ToL2MessageCancellation (sender : EthAddress) (timestamp : U256)
    (toAddress selector : U256) (payload : List U256) (nonce : U256) :
    Except Revert Receipt := do
  let message : L1ToL2Message := ⟨sender, toAddress, selector, payload, nonce⟩
  let msgHash := getL1ToL2MsgHash keccak256 message
  let msgFeePlusOne := self.l1ToL2Messages msgHash
  assert (msgFeePlusOne > 0) .noMessageToCancel
  let storage := { self with
    l1ToL2MessageCancellations :=
      Function.update self.l1ToL2MessageCancellations msgHash timestamp }
  return ⟨storage, .messageToL2CancellationStarted message, msgHash⟩

def cancelL1ToL2Message (sender : EthAddress) (timestamp : U256)
    (toAddress selector : U256) (payload : List U256) (nonce : U256) :
    Except Revert Receipt := do
  let message : L1ToL2Message := ⟨sender, toAddress, selector, payload, nonce⟩
  let msgHash := getL1ToL2MsgHash keccak256 message
  let msgFeePlusOne := self.l1ToL2Messages msgHash
  assert (msgFeePlusOne ≠ 0) .noMessageToCancel
  let requestTime := self.l1ToL2MessageCancellations msgHash
  assert (requestTime ≠ 0) .messageCancellationNotRequested
  let cancelAllowedTime ← checkedAdd requestTime self.messageCancellationDelay
  assert (cancelAllowedTime ≥ requestTime) .cancelAllowedTimeOverflow
  assert (timestamp ≥ cancelAllowedTime) .messageCancellationNotAllowedYet
  let storage := { self with
    l1ToL2Messages := Function.update self.l1ToL2Messages msgHash 0 }
  return ⟨storage, .messageToL2Canceled message, msgHash⟩

/-! ## The contract derived from it

Its code is not part of the repository. "A deriving contract can handle the
former pipe and add items to the latter pipe while interacting with L2", says
the comment of this one, whose interface has the two events. -/

/-- What the derived contract does to the pipes for one message. An `X` is
whatever else it reads: the caller, the block, its own storage. -/
structure DerivedContract (X : Type) where
  consumeMessageToL2 : X → Storage → L1ToL2Message → Except Revert Receipt
  addMessageToL1 : X → Storage → L2ToL1Message → Except Revert Receipt

/-- What is known of a call of it that does not revert. When it reverts, and
which hash it returns, is left open. -/
structure DerivedContract.Documented {X : Type} (derived : DerivedContract X) : Prop where
  /-- An item is removed from the pipe to L2, which had it. -/
  consumeMessageToL2 : ∀ {x self m r}, derived.consumeMessageToL2 x self m = .ok r →
    self.l1ToL2Messages (getL1ToL2MsgHash keccak256 m) ≠ 0
      ∧ r.storage = { self with
          l1ToL2Messages :=
            Function.update self.l1ToL2Messages (getL1ToL2MsgHash keccak256 m) 0 }
      ∧ r.event = .consumedMessageToL2 m
  /-- An item is added to the pipe to L1, in checked arithmetic. -/
  addMessageToL1 : ∀ {x self m r}, derived.addMessageToL1 x self m = .ok r →
    (self.l2ToL1Messages (l2ToL1MsgHash keccak256 m)).toNat + (1 : U256).toNat < 2 ^ 256
      ∧ r.storage = { self with
          l2ToL1Messages := Function.update self.l2ToL1Messages (l2ToL1MsgHash keccak256 m)
            (self.l2ToL1Messages (l2ToL1MsgHash keccak256 m) + 1) }
      ∧ r.event = .logMessageToL1 m

/-! ## Runs -/

inductive Call (X : Type) where
  | sendMessageToL2 (msg : Msg) (toAddress selector : U256) (payload : List U256)
  | consumeMessageFromL2 (sender : EthAddress) (fromAddress : U256) (payload : List U256)
  | startL1ToL2MessageCancellation (sender : EthAddress) (toAddress selector : U256)
      (payload : List U256) (nonce : U256)
  | cancelL1ToL2Message (sender : EthAddress) (toAddress selector : U256)
      (payload : List U256) (nonce : U256)
  | consumeMessageToL2 (x : X) (m : L1ToL2Message)
  | addMessageToL1 (x : X) (m : L2ToL1Message)

variable {X : Type} (derived : DerivedContract X)

def exec (timestamp : U256) : Call X → Except Revert Receipt
  | .sendMessageToL2 msg toAddress selector payload => do
      let (receipt, _) ← sendMessageToL2 keccak256 self msg toAddress selector payload
      return receipt
  | .consumeMessageFromL2 sender fromAddress payload =>
      consumeMessageFromL2 keccak256 self sender fromAddress payload
  | .startL1ToL2MessageCancellation sender toAddress selector payload nonce =>
      startL1ToL2MessageCancellation keccak256 self sender timestamp toAddress selector
        payload nonce
  | .cancelL1ToL2Message sender toAddress selector payload nonce =>
      cancelL1ToL2Message keccak256 self sender timestamp toAddress selector payload nonce
  | .consumeMessageToL2 x m => derived.consumeMessageToL2 x self m
  | .addMessageToL1 x m => derived.addMessageToL1 x self m

/-- An event, with the time of its block and the delay in force. -/
structure Record where
  timestamp : U256
  delay : U256
  event : Event
  deriving DecidableEq, Repr

/-- The contract and its events, newest first. -/
structure Core where
  storage : Storage
  records : List Record

def Core.start (delay : U256) : Core := ⟨.initial delay, []⟩

inductive Action (X : Type) where
  /-- A transaction, in a block of that time. -/
  | call (timestamp : U256) (call : Call X)
  /-- The internal setter, called by the derived contract. -/
  | messageCancellationDelay (delayInSeconds : U256)

def Core.step (s : Core) : Action X → Core
  | .call timestamp call =>
      match exec keccak256 s.storage derived timestamp call with
      | .ok receipt =>
          ⟨receipt.storage,
            ⟨timestamp, s.storage.messageCancellationDelay, receipt.event⟩ :: s.records⟩
      | .error _ => s
  | .messageCancellationDelay delay =>
      { s with storage := { s.storage with messageCancellationDelay := delay } }

end WorldIDBridge.L1.StarknetMessaging.Hashed
