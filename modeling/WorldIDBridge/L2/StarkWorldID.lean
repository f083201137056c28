import WorldIDBridge.L2.Components

/-!
# The StarkWorldID contract

The contract's storage is the storage of its two components. Its state
changes by L1 messages only: three handlers, each behind a generated
wrapper that picks the handler by selector and reads its argument from the
payload.
-/

namespace WorldIDBridge.L2

open Checked

namespace StarkWorldID

structure Storage where
  crossDomainOwnable : CrossDomainOwnable.Storage
  worldID : WorldID.Storage

inductive Event where
  | worldIDEvent (e : WorldID.Event)
  | crossDomainOwnableEvent (e : CrossDomainOwnable.NewL1Owner)
  deriving DecidableEq, Repr

/-- The storage of a fresh contract: every cell is zero. -/
def Storage.zero : Storage := ⟨⟨0⟩, ⟨0, 0, 0, fun _ => 0⟩⟩

/-- The constructor. The ownable component accepts any address. -/
def construct (l1Address : EthAddress) (treeDepth : U8) :
    Except Panic (Storage × List Event) := do
  let (ownable, event) :=
    CrossDomainOwnable.initializeOwner Storage.zero.crossDomainOwnable l1Address
  let worldID ← WorldID.intialize Storage.zero.worldID treeDepth
  return (⟨ownable, worldID⟩, [.crossDomainOwnableEvent event])

/-! ## The handlers -/

def receiveRoot (self : Storage) (fromAddress : Felt252) (newRoot : U256)
    (now : U64) : Except Panic (Storage × List Event) := do
  CrossDomainOwnable.onlyCrossDomainOwner self.crossDomainOwnable fromAddress
  let (worldID, event) ← WorldID.receiveRoot self.worldID newRoot now
  return ({ self with worldID := worldID }, [.worldIDEvent event])

def setRootHistoryExpiry (self : Storage) (fromAddress : Felt252)
    (expiryTime : Felt252) : Except Panic (Storage × List Event) := do
  CrossDomainOwnable.onlyCrossDomainOwner self.crossDomainOwnable fromAddress
  let (worldID, event) := WorldID.setRootHistoryExpiry self.worldID expiryTime
  return ({ self with worldID := worldID }, [.worldIDEvent event])

def changeL1StateBridgeAddress (self : Storage) (fromAddress : Felt252)
    (newOwner : EthAddress) : Except Panic (Storage × List Event) := do
  CrossDomainOwnable.onlyCrossDomainOwner self.crossDomainOwnable fromAddress
  let (ownable, event) ←
    CrossDomainOwnable.transferOwnership self.crossDomainOwnable fromAddress newOwner
  return ({ self with crossDomainOwnable := ownable },
    [.crossDomainOwnableEvent event])

/-- A call of one of the three `l1_handler` functions. -/
inductive HandlerCall where
  | receiveRoot (newRoot : U256)
  | setRootHistoryExpiry (expiryTime : Felt252)
  | changeL1StateBridgeAddress (newOwner : EthAddress)
  deriving DecidableEq, Repr

def HandlerCall.exec (self : Storage) (fromAddress : Felt252) (now : U64) :
    HandlerCall → Except Panic (Storage × List Event)
  | .receiveRoot newRoot => StarkWorldID.receiveRoot self fromAddress newRoot now
  | .setRootHistoryExpiry expiryTime =>
      StarkWorldID.setRootHistoryExpiry self fromAddress expiryTime
  | .changeL1StateBridgeAddress newOwner =>
      StarkWorldID.changeL1StateBridgeAddress self fromAddress newOwner

/-! ## Dispatch -/

/-- `selector!("receive_root")`. -/
def selectorReceiveRoot : Felt252 :=
  0x1ec02fa6378eca6ce8f976f7e74ad1a2241692571db908bc34270508d025cf4

/-- `selector!("set_root_history_expiry")`. -/
def selectorSetRootHistoryExpiry : Felt252 :=
  0x1ba7a639d674848b16374c4d650daf4142012a6209a07a5c480d2437146cf8a

/-- `selector!("change_l1_state_bridge_address")`. -/
def selectorChangeL1StateBridgeAddress : Felt252 :=
  0xfbaf97fb66bf629c4f04688e84ed75c84cd46d062fcb9a58c3667aa3f96c20

/-- A message as the sequencer hands it to the contract. -/
structure L1HandlerMessage where
  fromAddress : Felt252
  selector : Felt252
  payload : List Felt252
  deriving DecidableEq, Repr

/-- The call a message asks for: the handler by selector, its argument from
the payload. -/
def L1HandlerMessage.decode (m : L1HandlerMessage) : Except Panic HandlerCall :=
  if m.selector = selectorReceiveRoot then do
    let newRoot ← decodeArgument U256 m.payload
    return .receiveRoot newRoot
  else if m.selector = selectorSetRootHistoryExpiry then do
    let expiryTime ← decodeArgument Felt252 m.payload
    return .setRootHistoryExpiry expiryTime
  else if m.selector = selectorChangeL1StateBridgeAddress then do
    let newOwner ← decodeArgument EthAddress m.payload
    return .changeL1StateBridgeAddress newOwner
  else .error .entryPointNotFound

/-! ## What an accepted call does -/

/-- The guard of a handler apart from the sender check. -/
def HandlerCall.Guard (self : Storage) : HandlerCall → Prop
  | .receiveRoot newRoot => self.worldID.rootHistory newRoot = 0
  | .setRootHistoryExpiry _ => True
  | .changeL1StateBridgeAddress newOwner => newOwner ≠ 0

/-- The storage after an accepted call. -/
def HandlerCall.effect (self : Storage) (now : U64) : HandlerCall → Storage
  | .receiveRoot newRoot =>
      { self with worldID := { self.worldID with
          latestRoot := newRoot
          rootHistory := Function.update self.worldID.rootHistory newRoot
            (now.setWidth 128) } }
  | .setRootHistoryExpiry expiryTime =>
      { self with worldID := { self.worldID with rootHistoryExpiry := expiryTime } }
  | .changeL1StateBridgeAddress newOwner =>
      { self with crossDomainOwnable := ⟨newOwner⟩ }

/-- What an accepted call emits. -/
def HandlerCall.emits (self : Storage) (now : U64) : HandlerCall → List Event
  | .receiveRoot newRoot => [.worldIDEvent (.rootAdded newRoot (now.setWidth 128))]
  | .setRootHistoryExpiry expiryTime =>
      [.worldIDEvent (.rootHistoryExpirySet expiryTime)]
  | .changeL1StateBridgeAddress newOwner =>
      [.crossDomainOwnableEvent ⟨self.crossDomainOwnable.l1Owner, newOwner⟩]

/-- The sender check every handler makes first. -/
def Storage.Obeys (self : Storage) (fromAddress : Felt252) : Prop :=
  fromAddress ≠ 0 ∧ fromAddress = self.crossDomainOwnable.l1Owner.toFelt

/-- **One lemma for the three handlers**: a call is accepted exactly when it
comes from the nonzero owner and meets its guard, and then does its effect. -/
theorem HandlerCall.exec_eq_ok {self : Storage} {fromAddress : Felt252} {now : U64}
    {call : HandlerCall} {r : Storage × List Event} :
    call.exec self fromAddress now = .ok r
      ↔ self.Obeys fromAddress ∧ call.Guard self
        ∧ r = (call.effect self now, call.emits self now) := by
  rw [Storage.Obeys, ← CrossDomainOwnable.onlyCrossDomainOwner_eq_ok]
  cases call with
  | receiveRoot newRoot =>
      simp only [HandlerCall.exec, StarkWorldID.receiveRoot, bind_eq_ok]
      constructor
      · rintro ⟨⟨⟩, howner, w, hw, hr⟩
        obtain ⟨hfresh, rfl⟩ := WorldID.receiveRoot_eq_ok.mp hw
        exact ⟨howner, hfresh, (Except.ok.inj hr).symm⟩
      · rintro ⟨howner, hfresh, rfl⟩
        exact ⟨(), howner, _, WorldID.receiveRoot_eq_ok.mpr ⟨hfresh, rfl⟩, rfl⟩
  | setRootHistoryExpiry expiryTime =>
      simp only [HandlerCall.exec, StarkWorldID.setRootHistoryExpiry, bind_eq_ok]
      constructor
      · rintro ⟨⟨⟩, howner, hr⟩
        exact ⟨howner, trivial, (Except.ok.inj hr).symm⟩
      · rintro ⟨howner, -, rfl⟩
        exact ⟨(), howner, rfl⟩
  | changeL1StateBridgeAddress newOwner =>
      simp only [HandlerCall.exec, StarkWorldID.changeL1StateBridgeAddress, bind_eq_ok]
      constructor
      · rintro ⟨⟨⟩, howner, w, hw, hr⟩
        obtain ⟨hne, -, rfl⟩ := CrossDomainOwnable.transferOwnership_eq_ok.mp hw
        exact ⟨howner, hne, (Except.ok.inj hr).symm⟩
      · rintro ⟨howner, hne, rfl⟩
        exact ⟨(), howner, _,
          CrossDomainOwnable.transferOwnership_eq_ok.mpr ⟨hne, howner, rfl⟩, rfl⟩

/-- A root of the owner is refused exactly when the history has it. -/
theorem HandlerCall.receiveRoot_refused_iff {self : Storage} {fromAddress : Felt252}
    (howner : self.Obeys fromAddress) (root : U256) (now : U64) :
    (HandlerCall.receiveRoot root).exec self fromAddress now = .error .cannotOverwriteRoot
      ↔ self.worldID.rootHistory root ≠ 0 := by
  by_cases hfresh : self.worldID.rootHistory root = 0
  · have hok : (HandlerCall.receiveRoot root).exec self fromAddress now = .ok _ :=
      HandlerCall.exec_eq_ok.mpr ⟨howner, hfresh, rfl⟩
    rw [hok]
    exact iff_of_false nofun (not_not_intro hfresh)
  · refine iff_of_true ?_ hfresh
    simp only [HandlerCall.exec, StarkWorldID.receiveRoot,
      CrossDomainOwnable.onlyCrossDomainOwner_eq_ok.mpr howner, ok_bind,
      WorldID.receiveRoot_known now hfresh, error_bind]

theorem construct_eq_ok {l1Address : EthAddress} {treeDepth : U8}
    {r : Storage × List Event} :
    construct l1Address treeDepth = .ok r
      ↔ validate treeDepth = true
        ∧ r = (⟨⟨l1Address⟩, ⟨treeDepth, WorldID.oneWeek, 0, fun _ => 0⟩⟩,
            [.crossDomainOwnableEvent ⟨0, l1Address⟩]) := by
  simp only [construct, bind_eq_ok, WorldID.intialize_eq_ok]
  constructor
  · rintro ⟨w, ⟨hv, rfl⟩, hr⟩
    exact ⟨hv, (Except.ok.inj hr).symm⟩
  · rintro ⟨hv, rfl⟩
    exact ⟨_, ⟨hv, rfl⟩, rfl⟩

/-! ## Selectors -/

theorem decode_receiveRoot {m : L1HandlerMessage}
    (h : m.selector = selectorReceiveRoot) :
    m.decode = (decodeArgument U256 m.payload).map .receiveRoot := by
  rw [L1HandlerMessage.decode, if_pos h]
  cases decodeArgument U256 m.payload <;> rfl

theorem decode_setRootHistoryExpiry {m : L1HandlerMessage}
    (h : m.selector = selectorSetRootHistoryExpiry) :
    m.decode = (decodeArgument Felt252 m.payload).map .setRootHistoryExpiry := by
  rw [L1HandlerMessage.decode, if_neg (by rw [h]; decide), if_pos h]
  cases decodeArgument Felt252 m.payload <;> rfl

theorem decode_changeL1StateBridgeAddress {m : L1HandlerMessage}
    (h : m.selector = selectorChangeL1StateBridgeAddress) :
    m.decode
      = (decodeArgument EthAddress m.payload).map .changeL1StateBridgeAddress := by
  rw [L1HandlerMessage.decode, if_neg (by rw [h]; decide),
    if_neg (by rw [h]; decide), if_pos h]
  cases decodeArgument EthAddress m.payload <;> rfl

/-- The message that carries a call. -/
def HandlerCall.message (fromAddress : Felt252) : HandlerCall → L1HandlerMessage
  | .receiveRoot newRoot =>
      ⟨fromAddress, selectorReceiveRoot, Serde.serialize newRoot⟩
  | .setRootHistoryExpiry expiryTime =>
      ⟨fromAddress, selectorSetRootHistoryExpiry, Serde.serialize expiryTime⟩
  | .changeL1StateBridgeAddress newOwner =>
      ⟨fromAddress, selectorChangeL1StateBridgeAddress, Serde.serialize newOwner⟩

/-- Every call can be sent: its message decodes back to it. -/
theorem HandlerCall.decode_message (fromAddress : Felt252) (call : HandlerCall) :
    (call.message fromAddress).decode = .ok call := by
  cases call with
  | receiveRoot newRoot =>
      rw [decode_receiveRoot rfl, HandlerCall.message, decodeArgument_serialize]
      rfl
  | setRootHistoryExpiry expiryTime =>
      rw [decode_setRootHistoryExpiry rfl, HandlerCall.message,
        decodeArgument_serialize]
      rfl
  | changeL1StateBridgeAddress newOwner =>
      rw [decode_changeL1StateBridgeAddress rfl, HandlerCall.message,
        decodeArgument_serialize]
      rfl

end StarkWorldID

end WorldIDBridge.L2
