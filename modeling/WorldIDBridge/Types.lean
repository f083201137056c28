import Mathlib.Algebra.GroupWithZero.Nat
import WorldIDBridge.Lib.Limbs

/-!
# Machine types of the two chains

Unsigned words are bit vectors of their width, on both chains. A felt is a
residue of the STARK prime; an Ethereum address is a 160-bit word, and the
Cairo type `EthAddress` (a felt below `2^160`) is the same type, so that
an address out of range cannot be built.
-/

namespace WorldIDBridge

abbrev U8 := BitVec 8
abbrev U64 := BitVec 64
abbrev U128 := BitVec 128
abbrev U256 := BitVec 256

/-- An L1 account, and Cairo's `EthAddress`. -/
abbrev EthAddress := BitVec 160

/-- The STARK prime. -/
def feltPrime : Nat := 2 ^ 251 + 17 * 2 ^ 192 + 1

instance : NeZero feltPrime := ⟨by decide⟩

abbrev Felt252 := Fin feltPrime

/-- A 128-bit word is a felt. -/
theorem lt_feltPrime_of_lt {n : Nat} (h : n < 2 ^ 128) : n < feltPrime :=
  Nat.lt_trans h (by decide)

/-- `EthAddress.into()`. -/
def EthAddress.toFelt (a : EthAddress) : Felt252 :=
  ⟨a.toNat, Nat.lt_trans a.isLt (by decide)⟩

theorem EthAddress.toFelt_inj {a b : EthAddress} : a.toFelt = b.toFelt ↔ a = b := by
  simp [EthAddress.toFelt, BitVec.toNat_eq]

theorem EthAddress.toFelt_eq_zero {a : EthAddress} : a.toFelt = 0 ↔ a = 0 :=
  EthAddress.toFelt_inj (b := 0)

/-- The felt a 256-bit word denotes, if it is below the prime. -/
def toFelt? (v : U256) : Option Felt252 :=
  if h : v.toNat < feltPrime then some ⟨v.toNat, h⟩ else none

/-- `felt252.into()` at `u256`. -/
def feltToU256 (x : Felt252) : U256 := BitVec.ofNat 256 x.val

theorem feltToU256_toNat (x : Felt252) : (feltToU256 x).toNat = x.val := by
  rw [feltToU256, BitVec.toNat_ofNat]
  exact Nat.mod_eq_of_lt (Nat.lt_trans x.isLt (by decide))

/-! ## The limbs of a 256-bit word -/

/-- `u256.low`. -/
def U256.low (v : U256) : U128 := BitVec.ofNat 128 (Limbs.low 128 v.toNat)

/-- `u256.high`. -/
def U256.high (v : U256) : U128 := BitVec.ofNat 128 (Limbs.high 128 v.toNat)

/-- `u256 { low, high }`. -/
def U256.ofLimbs (low high : U128) : U256 :=
  BitVec.ofNat 256 (Limbs.join 128 low.toNat high.toNat)

@[simp] theorem U256.low_toNat (v : U256) : v.low.toNat = Limbs.low 128 v.toNat := by
  rw [U256.low, BitVec.toNat_ofNat]
  exact Nat.mod_eq_of_lt (Limbs.low_lt 128 v.toNat)

@[simp] theorem U256.high_toNat (v : U256) : v.high.toNat = Limbs.high 128 v.toNat := by
  rw [U256.high, BitVec.toNat_ofNat]
  exact Nat.mod_eq_of_lt (Limbs.high_lt (w := 128) v.isLt)

/-- The limbs of a word determine it. -/
@[simp] theorem U256.ofLimbs_low_high (v : U256) : U256.ofLimbs v.low v.high = v := by
  apply BitVec.eq_of_toNat_eq
  rw [U256.ofLimbs, U256.low_toNat, U256.high_toNat, Limbs.join_low_high,
    BitVec.toNat_ofNat]
  exact Nat.mod_eq_of_lt v.isLt

end WorldIDBridge
