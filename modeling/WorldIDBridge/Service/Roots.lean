import WorldIDBridge.Service.Fee
import WorldIDBridge.System.Messages
import Mathlib.Data.Nat.Digits.Lemmas

/-!
# The roots the relayer reads and compares

A root crosses three implementations: Solidity splits it into the words of
a payload, Rust splits it for the fee estimation and joins the two felts
that the L2 call `latest_root` returns, and Cairo serialises it. This
module has the Rust conversions, with the panics of the integer library,
and shows that the three agree on every 256-bit value.
-/

namespace WorldIDBridge.Service

open Checked L1 L2

/-- How a Rust function ends without a value: an error it returns, or a
panic. -/
inductive Failure where
  | error (report : String)
  | panic (message : String)
  deriving DecidableEq, Repr

namespace Utils

/-! ## The integer library -/

/-- `Felt::to_bytes_be`: 32 bytes, the most significant first. -/
def toBytesBe (x : Felt252) : List U8 :=
  (Nat.digitsAppend 256 32 x.val).reverse.map (BitVec.ofNat 8)

/-- `U256::from_big_endian`. -/
def fromBigEndian (bytes : List U8) : Except Failure U256 :=
  if bytes.length ≤ 32 then
    .ok (BitVec.ofNat 256 (Nat.ofDigits 256 (bytes.reverse.map BitVec.toNat)))
  else .error (.panic "assertion failed: 4 * 8 >= slice.len()")

/-- `U256::as_u128`. -/
def asU128 (v : U256) : Except Failure U128 :=
  if v.toNat < 2 ^ 128 then .ok (v.setWidth 128)
  else .error (.panic "Integer overflow when casting to u128")

/-- `+` of `U256`. -/
def add (a b : U256) : Except Failure U256 :=
  if a.toNat + b.toNat < 2 ^ 256 then .ok (a + b)
  else .error (.panic "arithmetic operation overflow")

/-! ## The conversions -/

def intoFelt (root : U256) : Except Failure (List Felt252) := do
  let latestRoot0 := u128ToFelt (lowU128 root)
  let latestRoot1 ← asU128 (root >>> 128)
  return [latestRoot0, u128ToFelt latestRoot1]

def feltsToU256 : List Felt252 → Except Failure U256
  | [low, high] => do
      let low ← fromBigEndian (toBytesBe low)
      let high ← fromBigEndian (toBytesBe high)
      -- `<<` drops what is shifted out, `+` panics
      add low (high <<< 128)
  | values =>
      .error (.error ("Expected 2 felts for u256, got " ++ toString values.length))

/-- Every byte of a felt survives. -/
theorem fromBigEndian_toBytesBe (x : Felt252) :
    fromBigEndian (toBytesBe x) = .ok (feltToU256 x) := by
  have hlt : x.val < 256 ^ 32 := Nat.lt_trans x.isLt (by decide)
  have hlen : (toBytesBe x).length = 32 := by
    rw [toBytesBe, List.length_map, List.length_reverse]
    exact Nat.length_digitsAppend (by decide) 32 hlt
  -- a digit is below 256, so a byte holds it
  have hbytes : (toBytesBe x).reverse.map BitVec.toNat = Nat.digitsAppend 256 32 x.val := by
    rw [toBytesBe, ← List.map_reverse, List.reverse_reverse, List.map_map]
    conv => rhs; rw [← List.map_id (Nat.digitsAppend 256 32 x.val)]
    apply List.map_congr_left
    intro d hd
    exact Nat.mod_eq_of_lt (Nat.lt_of_mem_digitsAppend (by decide) 32 d hd)
  have hval : Nat.ofDigits 256 (Nat.digitsAppend 256 32 x.val) = x.val :=
    (Nat.setInvOn_digitsAppend_ofDigits (by decide) 32).2 hlt
  rw [fromBigEndian, if_pos (Nat.le_of_eq hlen), hbytes, hval, feltToU256]

theorem lowU128_eq (v : U256) : lowU128 v = v.low := by
  apply BitVec.eq_of_toNat_eq
  rw [lowU128, BitVec.toNat_setWidth, U256.low_toNat, Limbs.low_eq_mod]

/-- The high limb fits: `as_u128` does not panic on it. -/
theorem asU128_shift (v : U256) : asU128 (v >>> 128) = .ok v.high := by
  have hval : (v >>> 128).toNat = Limbs.high 128 v.toNat := BitVec.toNat_ushiftRight v 128
  have hlt : (v >>> 128).toNat < 2 ^ 128 := hval ▸ Limbs.high_lt v.isLt
  have hword : (v >>> 128).setWidth 128 = v.high := by
    apply BitVec.eq_of_toNat_eq
    rw [BitVec.toNat_setWidth, Nat.mod_eq_of_lt hlt, hval, U256.high_toNat]
  rw [asU128, if_pos hlt, hword]

theorem intoFelt_eq (v : U256) : intoFelt v = .ok (Serde.serialize v) := by
  rw [intoFelt, asU128_shift, lowU128_eq]
  rfl

/-- The conversion never panics: it is the total one the event path uses. -/
theorem intoFelt_total (v : U256) : intoFelt v = .ok (Service.intoFelt v) := by
  have hhigh : lowU128 (v >>> 128) = v.high := by
    apply BitVec.eq_of_toNat_eq
    rw [lowU128_eq, U256.low_toNat, BitVec.toNat_ushiftRight, U256.high_toNat,
      Limbs.low_eq_mod]
    exact Nat.mod_eq_of_lt (Limbs.high_lt v.isLt)
  rw [intoFelt_eq, Service.intoFelt, lowU128_eq, hhigh]
  rfl

/-- Two words below `2^128`: no bit is shifted out, and the sum fits. -/
theorem feltsToU256_words (low high : U128) :
    feltsToU256 [u128ToFelt low, u128ToFelt high] = .ok (U256.ofLimbs low high) := by
  have hlow : (feltToU256 (u128ToFelt low)).toNat = low.toNat := feltToU256_toNat _
  have hhigh : (feltToU256 (u128ToFelt high) <<< 128).toNat = high.toNat * 2 ^ 128 := by
    rw [BitVec.toNat_shiftLeft, feltToU256_toNat, Nat.shiftLeft_eq]
    apply Nat.mod_eq_of_lt
    have hlt := high.isLt
    simp only [u128ToFelt]
    omega
  have hfits : (feltToU256 (u128ToFelt low)).toNat
      + (feltToU256 (u128ToFelt high) <<< 128).toNat < 2 ^ 256 := by
    rw [hlow, hhigh]
    omega
  have hsum : feltToU256 (u128ToFelt low) + feltToU256 (u128ToFelt high) <<< 128
      = U256.ofLimbs low high := by
    apply BitVec.eq_of_toNat_eq
    rw [BitVec.toNat_add, hlow, hhigh, U256.ofLimbs, BitVec.toNat_ofNat, Limbs.join]
  rw [feltsToU256, fromBigEndian_toBytesBe, fromBigEndian_toBytesBe, ok_bind, ok_bind, add,
    if_pos hfits, hsum]

theorem feltsToU256_serialize (v : U256) : feltsToU256 (Serde.serialize v) = .ok v := by
  rw [show Serde.serialize v = [u128ToFelt v.low, u128ToFelt v.high] from rfl,
    feltsToU256_words, U256.ofLimbs_low_high]

/-- Any other number of felts is refused, with the number in the report. -/
theorem feltsToU256_length {values : List Felt252} (h : values.length ≠ 2) :
    feltsToU256 values = .error
      (.error ("Expected 2 felts for u256, got " ++ toString values.length)) := by
  match values, h with
  | [], _ => rfl
  | [_], _ => rfl
  | [_, _], h => exact absurd rfl h
  | _ :: _ :: _ :: _, _ => rfl

end Utils

/-! ## Reading the two chains -/

inductive L2RootResult where
  | root (root : U256)
  | noRootsSeen
  deriving DecidableEq, Repr

/-- The answer of the L2 call `latest_root()`: the contract's, or another
failure of the provider. -/
abbrev L2Response := Except (Option Panic) (List Felt252)

/-- `latest_root` as an external function: the generated wrapper serialises
what it returns. -/
def latestRootCall (self : WorldID.Storage) : L2Response :=
  match WorldID.latestRoot self with
  | .ok root => .ok (Serde.serialize root)
  | .error e => .error (some e)

/-- `is_no_roots_error`. -/
def isNoRootsError (e : Option Panic) : Bool := e = some .noRootsSeen

def getL2RootResult : L2Response → Except Failure L2RootResult
  | .ok result => do
      let root ← Utils.feltsToU256 result
      return .root root
  | .error e =>
      if isNoRootsError e then .ok .noRootsSeen
      else .error (.error "L2 latest_root() call failed")

/-- `fetch_roots`, from the L1 root and the answer of the L2 call. -/
def fetchRoots (l1Root : U256) (response : L2Response) :
    Except Failure (U256 × L2RootResult) := do
  let l2Root ← getL2RootResult response
  failIf (l1Root = 0) (.error "L1 latest_root is zero")
  failIf (l2Root = .root 0) (.error "L2 latest_root is zero")
  return (l1Root, l2Root)

/-- The test `l1_root == l2_root` of the poller: without a root on L2 the
two are not in step. -/
def synced (l1Root : U256) : L2RootResult → Bool
  | .root l2Root => l1Root = l2Root
  | .noRootsSeen => false

/-- What `latest_root` answers is always understood. -/
theorem getL2RootResult_latestRootCall (self : WorldID.Storage) :
    getL2RootResult (latestRootCall self)
      = .ok (if self.latestRoot = 0 then .noRootsSeen else .root self.latestRoot) := by
  rw [latestRootCall, WorldID.latestRoot_eq]
  by_cases hz : self.latestRoot = 0
  · rw [if_pos hz, if_pos hz]
    rfl
  · rw [if_neg hz, if_neg hz]
    simp only [getL2RootResult, Utils.feltsToU256_serialize, ok_bind]
    rfl

/-- Two roots that are not zero are read as they are. -/
theorem fetchRoots_serialize {l1Root l2Root : U256} (hl1 : l1Root ≠ 0) (hl2 : l2Root ≠ 0) :
    fetchRoots l1Root (.ok (Serde.serialize l2Root)) = .ok (l1Root, .root l2Root) := by
  have hread : getL2RootResult (.ok (Serde.serialize l2Root)) = .ok (.root l2Root) := by
    simp only [getL2RootResult, Utils.feltsToU256_serialize, ok_bind]
    rfl
  have hne : ¬ L2RootResult.root l2Root = .root 0 := by simpa using hl2
  rw [fetchRoots, hread, ok_bind, failIf_neg hl1, ok_bind, failIf_neg hne]
  rfl

/-- The poller reads the cells of the two chains as they are. -/
theorem fetchRoots_latestRootCall {l1Root : U256} (h : l1Root ≠ 0) (self : WorldID.Storage) :
    fetchRoots l1Root (latestRootCall self)
      = .ok (l1Root,
          if self.latestRoot = 0 then .noRootsSeen else .root self.latestRoot) := by
  rw [fetchRoots, getL2RootResult_latestRootCall, ok_bind, failIf_neg h, ok_bind]
  by_cases hz : self.latestRoot = 0
  · rw [if_pos hz]
    rfl
  · have hne : ¬ L2RootResult.root self.latestRoot = .root 0 := by simpa using hz
    rw [if_neg hz, failIf_neg hne]
    rfl

/-- A zero root on L1 is an error. -/
theorem fetchRoots_zero (self : WorldID.Storage) :
    fetchRoots 0 (latestRootCall self) = .error (.error "L1 latest_root is zero") := by
  rw [fetchRoots, getL2RootResult_latestRootCall, ok_bind, failIf_pos rfl, error_bind]

/-- **The three implementations agree on every root**: one pair of words
for the payload a successful `propagateRoot` logs, the estimation and Serde,
each a felt below `2^128`; the handler decodes the payload to the root; the
relayer reads it back; and its test, which it makes for nonzero roots only, is
true exactly when the two chains hold the same root. -/
theorem encodings_agree (v : U256) (fromAddress : Felt252) :
    let words := [v.toNat % 2 ^ 128, v.toNat / 2 ^ 128]
    ((∀ self this w msg o, StarkStateBridge.propagateRoot self this w msg = .ok o →
          w.latestRoot self.worldIDIdentityManager = some v →
          ∀ log ∈ o.logs, log.selector = handleReceiveRootSelector
            ∧ log.payload = splitPayload v)
      ∧ (splitPayload v).map BitVec.toNat = words
      ∧ (Utils.intoFelt v).map (List.map Fin.val) = .ok words
      ∧ (Service.intoFelt v).map Fin.val = words
      ∧ (Serde.serialize v).map Fin.val = words
      ∧ ∀ word ∈ words, word < 2 ^ 128 ∧ word < feltPrime)
    ∧ (∃ payload, (splitPayload v).mapM toFelt? = some payload
        ∧ StarkWorldID.L1HandlerMessage.decode
            ⟨fromAddress, StarkWorldID.selectorReceiveRoot, payload⟩ = .ok (.receiveRoot v))
    ∧ Utils.feltsToU256 (Serde.serialize v) = .ok v
    ∧ ∀ self : WorldID.Storage,
        (v ≠ 0 → ∃ l2Root, fetchRoots v (latestRootCall self) = .ok (v, l2Root)
          ∧ (synced v l2Root = true ↔ v = self.latestRoot))
        ∧ (v = 0 → fetchRoots v (latestRootCall self)
            = .error (.error "L1 latest_root is zero")) := by
  intro words
  have hserde : (Serde.serialize v).map Fin.val = words := by
    show [v.low.toNat, v.high.toNat] = words
    rw [U256.low_toNat, U256.high_toNat, Limbs.low_eq_mod, Limbs.high_eq_div]
  have hinto : Service.intoFelt v = Serde.serialize v :=
    Except.ok.inj ((Utils.intoFelt_total v).symm.trans (Utils.intoFelt_eq v))
  refine ⟨⟨?_, ?_, ?_, hinto ▸ hserde, hserde, ?_⟩, ⟨_, splitPayload_toFelt v, ?_⟩,
    Utils.feltsToU256_serialize v, ?_⟩
  · exact fun self this w msg o hpropagate hroot =>
      StarkStateBridge.propagateRoot_payload hpropagate hroot
  · show [(v &&& (uint256PartSize - 1)).toNat, (v >>> uint256PartSizeBits).toNat] = words
    rw [toNat_and_partSize, toNat_shift_partSize, Limbs.low_eq_mod, Limbs.high_eq_div]
  · rw [Utils.intoFelt_eq]
    exact congrArg Except.ok hserde
  · intro word hword
    have hlt : word < 2 ^ 128 := by
      have hv := v.isLt
      simp only [words, List.mem_cons, List.not_mem_nil, or_false] at hword
      rcases hword with rfl | rfl
      · exact Nat.mod_lt _ (by decide)
      · omega
    exact ⟨hlt, lt_feltPrime_of_lt hlt⟩
  · exact StarkWorldID.HandlerCall.decode_message fromAddress (.receiveRoot v)
  · intro self
    refine ⟨fun hne => ⟨_, fetchRoots_latestRootCall hne self, ?_⟩, ?_⟩
    swap
    · rintro rfl
      exact fetchRoots_zero self
    by_cases hz : self.latestRoot = 0
    · rw [if_pos hz, hz]
      exact iff_of_false Bool.false_ne_true hne
    · rw [if_neg hz]
      exact decide_eq_true_iff

end WorldIDBridge.Service
