import WorldIDBridge.L1.StarknetMessaging

/-!
# StarkStateBridge

The bridge contract: nine external functions over seven storage cells.
`propagateRoot` is open to anyone; the rest is for the owner. Three
functions send a message to L2 through the messaging contract the bridge is
configured with; the other six set one cell each.

A call to another contract goes through a `World`: the messaging contract
of this repository at its own address, and for every other account what it
answers. A view call changes nothing.
-/

namespace WorldIDBridge.L1

open Checked

/-! ## Other contracts -/

/-- The contracts around the bridge. -/
structure World where
  coreAddress : EthAddress
  core : StarknetMessaging.Storage
  /-- What `latestRoot()` of an account returns, if it returns. -/
  latestRoot : EthAddress → Option U256
  /-- Whether an account other than the core takes a `sendMessageToL2`. -/
  accepts : EthAddress → Bool

namespace World

/-- `IWorldIDIdentityManager(manager).latestRoot()`. -/
def callLatestRoot (w : World) (manager : EthAddress) : Except Revert U256 :=
  match w.latestRoot manager with
  | some root => .ok root
  | none => .error .externalCall

/-- `IStarknetMessaging(callee).sendMessageToL2{value}(..)`. Only the core
logs a message the sequencer reads. -/
def callSendMessageToL2 (w : World) (callee : EthAddress) (msg : Msg)
    (toAddress selector : U256) (payload : List U256) :
    Except Revert (World × List LogMessageToL2) :=
  if callee = w.coreAddress then do
    let (core, log) ←
      StarknetMessaging.sendMessageToL2 w.core msg toAddress selector payload
    return ({ w with core := core }, [log])
  else do
    assert (w.accepts callee = true) .externalCall
    return (w, [])

theorem callLatestRoot_eq_ok {w : World} {manager : EthAddress} {root : U256} :
    w.callLatestRoot manager = .ok root ↔ w.latestRoot manager = some root := by
  rw [callLatestRoot]
  cases w.latestRoot manager <;> simp

/-- The message the core logs next. -/
def nextLog (w : World) (msg : Msg) (toAddress selector : U256) (payload : List U256) :
    LogMessageToL2 :=
  ⟨msg.sender, toAddress, selector, payload, w.core.l1ToL2MessageNonce, msg.value⟩

/-- The world after the core took a message. -/
def afterSend (w : World) (log : LogMessageToL2) : World :=
  { w with core := StarknetMessaging.afterSend w.core log }

/-- A message request goes to the core, which takes it for an accepted fee
and logs it, or to another account, which logs nothing. -/
theorem callSendMessageToL2_eq_ok {w : World} {callee : EthAddress} {msg : Msg}
    {toAddress selector : U256} {payload : List U256} {r : World × List LogMessageToL2} :
    w.callSendMessageToL2 callee msg toAddress selector payload = .ok r
      ↔ (callee = w.coreAddress ∧ StarknetMessaging.FeeAccepted msg.value
          ∧ r = (w.afterSend (w.nextLog msg toAddress selector payload),
              [w.nextLog msg toAddress selector payload]))
        ∨ (callee ≠ w.coreAddress ∧ w.accepts callee = true ∧ r = (w, [])) := by
  by_cases h : callee = w.coreAddress
  · rw [callSendMessageToL2, if_pos h, bind_eq_ok]
    simp only [StarknetMessaging.sendMessageToL2_eq_ok, h, true_and, ne_eq,
      not_true_eq_false, false_and, or_false]
    constructor
    · rintro ⟨⟨core, log⟩, ⟨hfee, hlog, hcore⟩, hr⟩
      simp only at hlog hcore
      subst hlog hcore
      exact ⟨hfee, (Except.ok.inj hr).symm⟩
    · rintro ⟨hfee, rfl⟩
      exact ⟨(_, w.nextLog msg toAddress selector payload), ⟨hfee, rfl, rfl⟩, rfl⟩
  · rw [callSendMessageToL2, if_neg h, assert_bind_eq_ok, pure_eq_ok, Except.ok.injEq,
      eq_comm (b := r)]
    simp only [h, false_and, false_or, ne_eq, not_false_eq_true, true_and]

end World

/-! ## Constants -/

/-- `HANDLE_RECEIVE_ROOT_SELECTOR`. -/
def handleReceiveRootSelector : U256 :=
  0x01ec02fa6378eca6ce8f976f7e74ad1a2241692571db908bc34270508d025cf4

/-- `HANDLE_SET_ROOT_HISTORY_EXPIRY_SELECTOR`. -/
def handleSetRootHistoryExpirySelector : U256 :=
  0x01ba7a639d674848b16374c4d650daf4142012a6209a07a5c480d2437146cf8a

/-- `HANDLE_CHANGE_L1_STATE_BRIDGE_ADDRESS_SELECTOR`. -/
def handleChangeL1StateBridgeAddressSelector : U256 :=
  0x00fbaf97fb66bf629c4f04688e84ed75c84cd46d062fcb9a58c3667aa3f96c20

/-- `UINT256_PART_SIZE_BITS`. -/
def uint256PartSizeBits : Nat := 128

/-- `UINT256_PART_SIZE`. -/
def uint256PartSize : U256 := BitVec.ofNat 256 (2 ^ uint256PartSizeBits)

/-- The two-word payload of a `uint256`: the low part, then the high part. -/
def splitPayload (v : U256) : List U256 :=
  [v &&& (uint256PartSize - 1), v >>> uint256PartSizeBits]

namespace StarkStateBridge

/-- `DEFAULT_STARK_FEE_LIMIT`, `0.0001 ether`. -/
def defaultStarkFeeLimit : U256 := BitVec.ofNat 256 (ether / 10000)

structure Storage where
  owner : EthAddress
  starkWorldIDAddress : U256
  worldIDIdentityManager : EthAddress
  starknetCoreContract : EthAddress
  feeLimitPropagateRoot : U256
  feeLimitSetRootHistoryExpiry : U256
  feeLimitTransferOwnership : U256
  deriving DecidableEq, Repr

inductive Event where
  | l1StateBridgeAddressOnL2Changed (previousOwner newOwner : EthAddress)
  | rootPropagated (root : U256)
  | setRootHistoryExpiry (rootHistoryExpiry : U256)
  | setFeeLimitPropagateRoot (feeLimit : U256)
  | setFeeLimitSetRootHistoryExpiry (feeLimit : U256)
  | setFeeLimitTransferOwnership (feeLimit : U256)
  | setWorldIDIdentityManager (worldIDIdentityManager : EthAddress)
  | setStarkWorldIDAddress (starkWorldIDAddress : U256)
  | setStarknetCoreContract (starknetCoreContract : EthAddress)
  deriving DecidableEq, Repr

/-- The constructor. It checks two of its three addresses. -/
def construct (sender worldIDIdentityManager : EthAddress) (starkWorldIDAddress : U256)
    (starknetCoreContract : EthAddress) : Except Revert Storage := do
  failIf (worldIDIdentityManager = 0 ∨ starkWorldIDAddress = 0) .addressZero
  return ⟨sender, starkWorldIDAddress, worldIDIdentityManager, starknetCoreContract,
    defaultStarkFeeLimit, defaultStarkFeeLimit, defaultStarkFeeLimit⟩

/-- What a call leaves: the bridge, the world, the messages logged for L2
and the event emitted. -/
structure Outcome where
  bridge : Storage
  world : World
  logs : List LogMessageToL2
  event : Event

variable (self : Storage) (this : EthAddress) (w : World) (msg : Msg)

def onlyOwner : Except Revert Unit :=
  assert (msg.sender = self.owner) .ownableUnauthorizedAccount

/-! ## Functions that send a message -/

/-- The message of the three sending functions, and their event after it. -/
def send (selector : U256) (payload : List U256) (event : Event) :
    Except Revert Outcome := do
  let (w, logs) ← w.callSendMessageToL2 self.starknetCoreContract ⟨this, msg.value⟩
    self.starkWorldIDAddress selector payload
  return ⟨self, w, logs, event⟩

def propagateRoot : Except Revert Outcome := do
  failIf (msg.value ≥ self.feeLimitPropagateRoot) .exceededFeeLimit
  let latestRoot ← w.callLatestRoot self.worldIDIdentityManager
  send self this w msg handleReceiveRootSelector (splitPayload latestRoot)
    (.rootPropagated latestRoot)

def changeL1StateBridgeAddress (newL1StateBridgeAddress : EthAddress) :
    Except Revert Outcome := do
  onlyOwner self msg
  failIf (msg.value ≥ self.feeLimitTransferOwnership) .exceededFeeLimit
  failIf (newL1StateBridgeAddress = 0) .addressZero
  send self this w msg handleChangeL1StateBridgeAddressSelector
    [newL1StateBridgeAddress.setWidth 256]
    (.l1StateBridgeAddressOnL2Changed this newL1StateBridgeAddress)

def setRootHistoryExpiry (rootHistoryExpiry : U256) : Except Revert Outcome := do
  onlyOwner self msg
  failIf (msg.value ≥ self.feeLimitSetRootHistoryExpiry) .exceededFeeLimit
  send self this w msg handleSetRootHistoryExpirySelector
    (splitPayload rootHistoryExpiry) (.setRootHistoryExpiry rootHistoryExpiry)

/-! ## Functions that set one cell -/

/-- A setter: not payable, for the owner, and it refuses a zero. -/
def setCell (isZero : Prop) [Decidable isZero] (e : Revert) (bridge : Storage)
    (event : Event) : Except Revert Outcome := do
  assert (msg.value = 0) .callValue
  onlyOwner self msg
  failIf isZero e
  return ⟨bridge, w, [], event⟩

def setFeeLimitPropagateRoot (starkFeeLimit : U256) : Except Revert Outcome :=
  setCell self w msg (starkFeeLimit ≤ 0) .feeLimitZero
    { self with feeLimitPropagateRoot := starkFeeLimit }
    (.setFeeLimitPropagateRoot starkFeeLimit)

def setFeeLimitSetRootHistoryExpiry (starkFeeLimit : U256) : Except Revert Outcome :=
  setCell self w msg (starkFeeLimit ≤ 0) .feeLimitZero
    { self with feeLimitSetRootHistoryExpiry := starkFeeLimit }
    (.setFeeLimitSetRootHistoryExpiry starkFeeLimit)

def setFeeLimitTransferOwnership (starkFeeLimit : U256) : Except Revert Outcome :=
  setCell self w msg (starkFeeLimit ≤ 0) .feeLimitZero
    { self with feeLimitTransferOwnership := starkFeeLimit }
    (.setFeeLimitTransferOwnership starkFeeLimit)

def setWorldIDIdentityManager (worldIDIdentityManager : EthAddress) :
    Except Revert Outcome :=
  setCell self w msg (worldIDIdentityManager = 0) .addressZero
    { self with worldIDIdentityManager := worldIDIdentityManager }
    (.setWorldIDIdentityManager worldIDIdentityManager)

def setStarkWorldIDAddress (starkWorldIDAddress : U256) : Except Revert Outcome :=
  setCell self w msg (starkWorldIDAddress = 0) .addressZero
    { self with starkWorldIDAddress := starkWorldIDAddress }
    (.setStarkWorldIDAddress starkWorldIDAddress)

def setStarknetCoreContract (starknetCoreContract : EthAddress) :
    Except Revert Outcome :=
  setCell self w msg (starknetCoreContract = 0) .addressZero
    { self with starknetCoreContract := starknetCoreContract }
    (.setStarknetCoreContract starknetCoreContract)

end StarkStateBridge

/-- A call of one of the bridge's external functions. -/
inductive BridgeCall where
  | propagateRoot
  | changeL1StateBridgeAddress (newL1StateBridgeAddress : EthAddress)
  | setRootHistoryExpiry (rootHistoryExpiry : U256)
  | setFeeLimitPropagateRoot (starkFeeLimit : U256)
  | setFeeLimitSetRootHistoryExpiry (starkFeeLimit : U256)
  | setFeeLimitTransferOwnership (starkFeeLimit : U256)
  | setWorldIDIdentityManager (worldIDIdentityManager : EthAddress)
  | setStarkWorldIDAddress (starkWorldIDAddress : U256)
  | setStarknetCoreContract (starknetCoreContract : EthAddress)
  deriving DecidableEq, Repr

namespace StarkStateBridge

variable (self : Storage) (this : EthAddress) (w : World) (msg : Msg)

def exec : BridgeCall → Except Revert Outcome
  | .propagateRoot => propagateRoot self this w msg
  | .changeL1StateBridgeAddress a => changeL1StateBridgeAddress self this w msg a
  | .setRootHistoryExpiry e => setRootHistoryExpiry self this w msg e
  | .setFeeLimitPropagateRoot x => setFeeLimitPropagateRoot self w msg x
  | .setFeeLimitSetRootHistoryExpiry x => setFeeLimitSetRootHistoryExpiry self w msg x
  | .setFeeLimitTransferOwnership x => setFeeLimitTransferOwnership self w msg x
  | .setWorldIDIdentityManager a => setWorldIDIdentityManager self w msg a
  | .setStarkWorldIDAddress x => setStarkWorldIDAddress self w msg x
  | .setStarknetCoreContract a => setStarknetCoreContract self w msg a

/-! ## What a successful call does -/

/-- The checks of a function apart from those of the messaging contract. -/
def Guard : BridgeCall → Prop
  | .propagateRoot =>
      msg.value < self.feeLimitPropagateRoot
        ∧ (w.latestRoot self.worldIDIdentityManager).isSome
  | .changeL1StateBridgeAddress a =>
      msg.sender = self.owner ∧ msg.value < self.feeLimitTransferOwnership ∧ a ≠ 0
  | .setRootHistoryExpiry _ =>
      msg.sender = self.owner ∧ msg.value < self.feeLimitSetRootHistoryExpiry
  | .setFeeLimitPropagateRoot x => msg.value = 0 ∧ msg.sender = self.owner ∧ x ≠ 0
  | .setFeeLimitSetRootHistoryExpiry x => msg.value = 0 ∧ msg.sender = self.owner ∧ x ≠ 0
  | .setFeeLimitTransferOwnership x => msg.value = 0 ∧ msg.sender = self.owner ∧ x ≠ 0
  | .setWorldIDIdentityManager a => msg.value = 0 ∧ msg.sender = self.owner ∧ a ≠ 0
  | .setStarkWorldIDAddress x => msg.value = 0 ∧ msg.sender = self.owner ∧ x ≠ 0
  | .setStarknetCoreContract a => msg.value = 0 ∧ msg.sender = self.owner ∧ a ≠ 0

/-- The selector and payload a call asks the messaging contract to send. -/
def request : BridgeCall → Option (U256 × List U256)
  | .propagateRoot =>
      (w.latestRoot self.worldIDIdentityManager).map fun root =>
        (handleReceiveRootSelector, splitPayload root)
  | .changeL1StateBridgeAddress a =>
      some (handleChangeL1StateBridgeAddressSelector, [a.setWidth 256])
  | .setRootHistoryExpiry e => some (handleSetRootHistoryExpirySelector, splitPayload e)
  | _ => none

/-- The cells after a call. -/
def configure : BridgeCall → Storage
  | .setFeeLimitPropagateRoot x => { self with feeLimitPropagateRoot := x }
  | .setFeeLimitSetRootHistoryExpiry x => { self with feeLimitSetRootHistoryExpiry := x }
  | .setFeeLimitTransferOwnership x => { self with feeLimitTransferOwnership := x }
  | .setWorldIDIdentityManager a => { self with worldIDIdentityManager := a }
  | .setStarkWorldIDAddress x => { self with starkWorldIDAddress := x }
  | .setStarknetCoreContract a => { self with starknetCoreContract := a }
  | _ => self

/-- The event a call emits. -/
def emits : BridgeCall → Event
  | .propagateRoot =>
      .rootPropagated ((w.latestRoot self.worldIDIdentityManager).getD 0)
  | .changeL1StateBridgeAddress a => .l1StateBridgeAddressOnL2Changed this a
  | .setRootHistoryExpiry e => .setRootHistoryExpiry e
  | .setFeeLimitPropagateRoot x => .setFeeLimitPropagateRoot x
  | .setFeeLimitSetRootHistoryExpiry x => .setFeeLimitSetRootHistoryExpiry x
  | .setFeeLimitTransferOwnership x => .setFeeLimitTransferOwnership x
  | .setWorldIDIdentityManager a => .setWorldIDIdentityManager a
  | .setStarkWorldIDAddress x => .setStarkWorldIDAddress x
  | .setStarknetCoreContract a => .setStarknetCoreContract a

variable {self this w msg}

theorem onlyOwner_bind_eq_ok {f : Unit → Except Revert Outcome} {o : Outcome} :
    (onlyOwner self msg >>= f) = .ok o ↔ msg.sender = self.owner ∧ f () = .ok o :=
  assert_bind_eq_ok

theorem setCell_eq_ok {isZero : Prop} [Decidable isZero] {e : Revert} {bridge : Storage}
    {event : Event} {o : Outcome} :
    setCell self w msg isZero e bridge event = .ok o
      ↔ (msg.value = 0 ∧ msg.sender = self.owner ∧ ¬ isZero)
        ∧ o = ⟨bridge, w, [], event⟩ := by
  rw [setCell, assert_bind_eq_ok, onlyOwner_bind_eq_ok, failIf_bind_eq_ok, pure_eq_ok,
    Except.ok.injEq, eq_comm (a := o)]
  simp only [and_assoc]

/-- A sent message leaves the bridge's own cells alone. -/
theorem send_eq_ok {selector : U256} {payload : List U256} {event : Event} {o : Outcome} :
    send self this w msg selector payload event = .ok o
      ↔ ∃ w' logs, w.callSendMessageToL2 self.starknetCoreContract ⟨this, msg.value⟩
            self.starkWorldIDAddress selector payload = .ok (w', logs)
          ∧ o = ⟨self, w', logs, event⟩ := by
  rw [send, bind_eq_ok]
  constructor
  · rintro ⟨⟨w', logs⟩, hsend, ho⟩
    exact ⟨w', logs, hsend, (Except.ok.inj ho).symm⟩
  · rintro ⟨w', logs, hsend, rfl⟩
    exact ⟨(w', logs), hsend, rfl⟩

theorem not_le_zero {x : U256} : ¬ x ≤ 0 ↔ x ≠ 0 := not_congr BitVec.le_zero_iff

/-- What a call does once its guard holds: it sends its request, or sets its
cell. -/
def Effect (self : Storage) (this : EthAddress) (w : World) (msg : Msg) (call : BridgeCall)
    (o : Outcome) : Prop :=
  match request self w call with
  | none => o = ⟨configure self call, w, [], emits self this w call⟩
  | some (selector, payload) =>
      send self this w msg selector payload (emits self this w call) = .ok o

theorem propagateRoot_eq_ok {o : Outcome} :
    propagateRoot self this w msg = .ok o
      ↔ msg.value < self.feeLimitPropagateRoot
        ∧ ∃ root, w.latestRoot self.worldIDIdentityManager = some root
          ∧ send self this w msg handleReceiveRootSelector (splitPayload root)
              (.rootPropagated root) = .ok o := by
  rw [propagateRoot, failIf_bind_eq_ok, bind_eq_ok]
  simp only [World.callLatestRoot_eq_ok, ge_iff_le, BitVec.not_le]

/-- **One lemma for the nine functions**: a call succeeds exactly when its
guard holds and its effect goes through. -/
theorem exec_eq_ok {call : BridgeCall} {o : Outcome} :
    exec self this w msg call = .ok o
      ↔ Guard self w msg call ∧ Effect self this w msg call o := by
  cases call with
  | propagateRoot =>
      rw [exec, propagateRoot_eq_ok, Guard, Effect, request, emits]
      cases w.latestRoot self.worldIDIdentityManager with
      | none => simp
      | some root => simp
  | changeL1StateBridgeAddress a =>
      rw [exec, changeL1StateBridgeAddress, onlyOwner_bind_eq_ok, failIf_bind_eq_ok,
        failIf_bind_eq_ok, ge_iff_le, BitVec.not_le, Guard, and_assoc, and_assoc]
      rfl
  | setRootHistoryExpiry e =>
      rw [exec, setRootHistoryExpiry, onlyOwner_bind_eq_ok, failIf_bind_eq_ok,
        ge_iff_le, BitVec.not_le, Guard, and_assoc]
      rfl
  | setFeeLimitPropagateRoot x =>
      rw [exec, setFeeLimitPropagateRoot, setCell_eq_ok, not_le_zero]
      rfl
  | setFeeLimitSetRootHistoryExpiry x =>
      rw [exec, setFeeLimitSetRootHistoryExpiry, setCell_eq_ok, not_le_zero]
      rfl
  | setFeeLimitTransferOwnership x =>
      rw [exec, setFeeLimitTransferOwnership, setCell_eq_ok, not_le_zero]
      rfl
  | setWorldIDIdentityManager a => exact setCell_eq_ok
  | setStarkWorldIDAddress x => exact setCell_eq_ok
  | setStarknetCoreContract a => exact setCell_eq_ok

/-- The message the core logs for a request of the bridge. -/
def logOf (self : Storage) (this : EthAddress) (w : World) (msg : Msg) (selector : U256)
    (payload : List U256) : LogMessageToL2 :=
  w.nextLog ⟨this, msg.value⟩ self.starkWorldIDAddress selector payload

/-- What a successful call can do to the world: nothing, or one message
through the core, which leaves the bridge's cells alone. -/
theorem exec_cases {call : BridgeCall} {o : Outcome}
    (h : exec self this w msg call = .ok o) :
    ((request self w call = none ∨ self.starknetCoreContract ≠ w.coreAddress)
        ∧ o.bridge = configure self call ∧ o.world = w ∧ o.logs = [])
      ∨ ∃ selector payload, request self w call = some (selector, payload)
          ∧ self.starknetCoreContract = w.coreAddress
          ∧ StarknetMessaging.FeeAccepted msg.value
          ∧ o.bridge = self
          ∧ o.world = w.afterSend (logOf self this w msg selector payload)
          ∧ o.logs = [logOf self this w msg selector payload] := by
  obtain ⟨-, heff⟩ := exec_eq_ok.mp h
  rw [Effect] at heff
  cases hreq : request self w call with
  | none =>
      rw [hreq] at heff
      subst heff
      exact .inl ⟨.inl rfl, rfl, rfl, rfl⟩
  | some r =>
      obtain ⟨selector, payload⟩ := r
      rw [hreq] at heff
      obtain ⟨w', logs, hsend, rfl⟩ := send_eq_ok.mp heff
      -- the address configured as the core is the core, or some contract that took the call
      rcases World.callSendMessageToL2_eq_ok.mp hsend with
        ⟨hcore, hfee, hw⟩ | ⟨hcore, -, hw⟩
      · obtain ⟨rfl, rfl⟩ := Prod.mk.inj hw
        exact .inr ⟨selector, payload, rfl, hcore, hfee, rfl, rfl, rfl⟩
      · obtain ⟨rfl, rfl⟩ := Prod.mk.inj hw
        refine .inl ⟨.inr hcore, ?_, rfl, rfl⟩
        cases call <;> first | rfl | cases hreq

/-- A bridge configured with the core sends every message it is asked for. -/
theorem logs_of_core {call : BridgeCall} {o : Outcome}
    (h : exec self this w msg call = .ok o)
    (hcore : self.starknetCoreContract = w.coreAddress) {selector : U256}
    {payload : List U256} (hreq : request self w call = some (selector, payload)) :
    o.logs = [logOf self this w msg selector payload] := by
  rcases exec_cases h with ⟨hnone | hne, -⟩ | ⟨selector', payload', hreq', -, -, -, -, hlogs⟩
  · rw [hreq] at hnone
    cases hnone
  · exact absurd hcore hne
  · rw [hreq, Option.some.injEq, Prod.mk.injEq] at hreq'
    rw [hlogs, hreq'.1, hreq'.2]

/-- A message of `propagateRoot` is the latest root, split. -/
theorem propagateRoot_payload {o : Outcome} (h : propagateRoot self this w msg = .ok o)
    {root : U256} (hroot : w.latestRoot self.worldIDIdentityManager = some root) :
    ∀ log ∈ o.logs, log.selector = handleReceiveRootSelector ∧ log.payload = splitPayload root := by
  have hexec : exec self this w msg .propagateRoot = .ok o := h
  have hreq : request self w .propagateRoot
      = some (handleReceiveRootSelector, splitPayload root) := by
    rw [request, hroot]
    rfl
  intro log hlog
  rcases exec_cases hexec with ⟨-, -, -, hnone⟩ | ⟨selector, payload, hreq', -, -, -, -, hlogs⟩
  · rw [hnone] at hlog
    cases hlog
  · obtain ⟨rfl, rfl⟩ := Prod.mk.inj (Option.some.inj (hreq.symm.trans hreq'))
    obtain rfl := List.mem_singleton.mp (hlogs ▸ hlog)
    exact ⟨rfl, rfl⟩

end StarkStateBridge

end WorldIDBridge.L1
