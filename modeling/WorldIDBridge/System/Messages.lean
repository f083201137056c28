import WorldIDBridge.System.Composition

/-!
# The bridge's messages as L2 reads them

The encoder is Solidity, the decoder is generated from the Cairo
signatures. For each function of the bridge that sends, this module says
what the L2 wrapper makes of its selector and payload.
-/

namespace WorldIDBridge

open Checked L1 L2 L2.StarkWorldID

theorem toFelt?_eq_some {v : U256} (h : v.toNat < feltPrime) :
    toFelt? v = some ⟨v.toNat, h⟩ := dif_pos h

/-! ## Words -/

theorem toNat_and_partSize (v : U256) :
    (v &&& (uint256PartSize - 1)).toNat = Limbs.low 128 v.toNat := by
  rw [BitVec.toNat_and, show (uint256PartSize - 1).toNat = 2 ^ 128 - 1 from by decide,
    Limbs.low]

theorem toNat_shift_partSize (v : U256) :
    (v >>> uint256PartSizeBits).toNat = Limbs.high 128 v.toNat := by
  rw [BitVec.toNat_ushiftRight, Limbs.high, uint256PartSizeBits]

/-- The two words of a `uint256` are the Cairo form of the `u256`. -/
theorem splitPayload_toFelt (v : U256) :
    (splitPayload v).mapM toFelt? = some (Serde.serialize v) := by
  have hlow : toFelt? (v &&& (uint256PartSize - 1)) = some (u128ToFelt v.low) := by
    have h : (v &&& (uint256PartSize - 1)).toNat = v.low.toNat := by
      rw [toNat_and_partSize, U256.low_toNat]
    rw [toFelt?_eq_some (h ▸ lt_feltPrime_of_lt v.low.isLt)]
    exact congrArg some (Fin.ext h)
  have hhigh : toFelt? (v >>> uint256PartSizeBits) = some (u128ToFelt v.high) := by
    have h : (v >>> uint256PartSizeBits).toNat = v.high.toNat := by
      rw [toNat_shift_partSize, U256.high_toNat]
    rw [toFelt?_eq_some (h ▸ lt_feltPrime_of_lt v.high.isLt)]
    exact congrArg some (Fin.ext h)
  simp only [splitPayload, List.mapM_cons, List.mapM_nil, hlow, hhigh]
  rfl

theorem toFelt?_setWidth (a : EthAddress) : toFelt? (a.setWidth 256) = some a.toFelt := by
  have h : (a.setWidth 256).toNat = a.toNat := BitVec.toNat_setWidth_of_le (by omega)
  rw [toFelt?_eq_some (h ▸ a.toFelt.isLt)]
  exact congrArg some (Fin.ext h)

/-! ## Selectors -/

theorem handleReceiveRootSelector_toFelt :
    toFelt? handleReceiveRootSelector = some selectorReceiveRoot := by decide

theorem handleSetRootHistoryExpirySelector_toFelt :
    toFelt? handleSetRootHistoryExpirySelector = some selectorSetRootHistoryExpiry := by
  decide

theorem handleChangeL1StateBridgeAddressSelector_toFelt :
    toFelt? handleChangeL1StateBridgeAddressSelector
      = some selectorChangeL1StateBridgeAddress := by decide

/-! ## The three messages -/

variable {log : LogMessageToL2}

/-- **A root arrives as it was sent**: the message of `propagateRoot` is the
`receive_root` call of the same 256-bit root. -/
theorem toL2_receiveRoot {root : U256} (hs : log.selector = handleReceiveRootSelector)
    (hp : log.payload = splitPayload root) :
    log.toL2 = some ((HandlerCall.receiveRoot root).message log.fromAddress.toFelt) := by
  simp only [LogMessageToL2.toL2, hs, hp, handleReceiveRootSelector_toFelt,
    splitPayload_toFelt]
  rfl

/-- A hand-over arrives as it was sent. -/
theorem toL2_changeL1StateBridgeAddress {a : EthAddress}
    (hs : log.selector = handleChangeL1StateBridgeAddressSelector)
    (hp : log.payload = [a.setWidth 256]) :
    log.toL2
      = some ((HandlerCall.changeL1StateBridgeAddress a).message log.fromAddress.toFelt) := by
  simp only [LogMessageToL2.toL2, hs, hp, handleChangeL1StateBridgeAddressSelector_toFelt,
    List.mapM_cons, List.mapM_nil, toFelt?_setWidth]
  rfl

/-- The message of `setRootHistoryExpiry`: the selector of the handler, with
two words where the handler takes one. -/
theorem toL2_setRootHistoryExpiry {e : U256}
    (hs : log.selector = handleSetRootHistoryExpirySelector)
    (hp : log.payload = splitPayload e) :
    log.toL2 = some ⟨log.fromAddress.toFelt, selectorSetRootHistoryExpiry,
      [u128ToFelt e.low, u128ToFelt e.high]⟩ := by
  simp only [LogMessageToL2.toL2, hs, hp, handleSetRootHistoryExpirySelector_toFelt,
    splitPayload_toFelt]
  rfl

/-- The wrapper of `set_root_history_expiry` panics on two words. -/
theorem decode_twoWordExpiry (fromAddress low high : Felt252) :
    L1HandlerMessage.decode ⟨fromAddress, selectorSetRootHistoryExpiry, [low, high]⟩
      = .error .inputTooLongForArguments := by
  rw [decode_setRootHistoryExpiry rfl]
  rfl

/-! ## The root a message carries to StarkWorldID -/

namespace System

variable (acc : Accounts)

/-- The root of a `receive_root` message from the bridge to StarkWorldID. -/
def rootOf (log : LogMessageToL2) : Option U256 :=
  if log.fromAddress = acc.bridge ∧ log.toAddress = acc.worldID then
    match log.toL2.map L1HandlerMessage.decode with
    | some (.ok (.receiveRoot root)) => some root
    | _ => none
  else none

variable {acc}

theorem rootOf_eq_some {root : U256} :
    rootOf acc log = some root
      ↔ (log.fromAddress = acc.bridge ∧ log.toAddress = acc.worldID)
        ∧ ∃ m, log.toL2 = some m ∧ m.decode = .ok (.receiveRoot root) := by
  rw [rootOf]
  split
  · rename_i h
    rw [and_iff_right h]
    cases hm : log.toL2 with
    | none => simp
    | some m =>
        cases hd : m.decode with
        | error e => simp [hd]
        | ok call => cases call <;> simp [hd]
  · rename_i h
    exact iff_of_false nofun (fun hc => h hc.1)

theorem toL2_fromAddress {m : L1HandlerMessage} (hm : log.toL2 = some m) :
    m.fromAddress = log.fromAddress.toFelt := by
  simp only [LogMessageToL2.toL2, bind, Option.bind_eq_some_iff, pure,
    Option.some.injEq] at hm
  obtain ⟨_, -, _, -, rfl⟩ := hm
  rfl

/-- StarkWorldID obeys the bridge that owns it. -/
theorem obeys_bridge {storage : StarkWorldID.Storage} {bridge : EthAddress}
    (howner : storage.crossDomainOwnable.l1Owner = bridge) (hbridge : bridge ≠ 0) :
    storage.Obeys bridge.toFelt := by
  rw [Storage.Obeys, howner, ne_eq, EthAddress.toFelt_eq_zero]
  exact ⟨hbridge, rfl⟩

/-- A root of the owning bridge that the history does not have is accepted. -/
theorem receive_fresh {c : Chain} {root : U256} (hroot : rootOf acc log = some root)
    (howner : c.storage.crossDomainOwnable.l1Owner = acc.bridge) (hbridge : acc.bridge ≠ 0)
    (hfresh : c.storage.worldID.rootHistory root = 0) (timestamp : U64) :
    receive acc c log timestamp
      = ⟨(HandlerCall.receiveRoot root).effect c.storage timestamp,
          (timestamp, .receiveRoot root) :: c.accepted,
          (HandlerCall.receiveRoot root).emits c.storage timestamp ++ c.events⟩ := by
  obtain ⟨⟨hfrom, hto⟩, m, hm, hdec⟩ := rootOf_eq_some.mp hroot
  have hobeys : c.storage.Obeys m.fromAddress := by
    rw [toL2_fromAddress hm, hfrom]
    exact obeys_bridge howner hbridge
  rw [receive, if_pos hto, hm]
  exact Chain.deliver_of_accepts ⟨hdec, hobeys, hfresh⟩

/-- A root that the history has is refused, whoever sends it. -/
theorem receive_known {c : Chain} {root : U256} (hroot : rootOf acc log = some root)
    (hknown : c.storage.worldID.rootHistory root ≠ 0) (timestamp : U64) :
    receive acc c log timestamp = c := by
  obtain ⟨⟨-, hto⟩, m, hm, hdec⟩ := rootOf_eq_some.mp hroot
  rw [receive, if_pos hto, hm]
  refine Chain.deliver_of_rejects ?_
  rintro call ⟨hdec', -, hguard⟩
  rw [hdec] at hdec'
  obtain rfl := Except.ok.inj hdec'
  exact hknown hguard

end System

end WorldIDBridge
