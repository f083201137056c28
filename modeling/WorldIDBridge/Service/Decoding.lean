import WorldIDBridge.Service.Roots

/-!
# What the relayer takes for a root

The L2 call answers with felts, and a felt has more bits than a word of a
`u256`. `felts_to_u256` checks how many felts there are and not how large
they are. This module says what it makes of every two felts, and for which
answers it is the strict inverse of `into_felt`.
-/

namespace WorldIDBridge.Service

open Checked L1 L2

namespace Utils

/-- What Serde writes for a `u256`: two felts below `2^128`. -/
def Canonical (values : List Felt252) : Prop :=
  values.length = 2 ∧ ∀ x ∈ values, x.val < 2 ^ 128

/-- The bits of the second felt above the first 128 are shifted out. -/
theorem shift_toNat (high : Felt252) :
    (feltToU256 high <<< 128).toNat = high.val % 2 ^ 128 * 2 ^ 128 := by
  rw [BitVec.toNat_shiftLeft, feltToU256_toNat, Nat.shiftLeft_eq]
  omega

/-- **Any two felts**: the second counts modulo `2^128`, the first with all
its bits, and the sum may not fit. -/
theorem feltsToU256_pair (low high : Felt252) :
    feltsToU256 [low, high]
      = if low.val + high.val % 2 ^ 128 * 2 ^ 128 < 2 ^ 256 then
          .ok (feltToU256 low + feltToU256 high <<< 128)
        else .error (.panic "arithmetic operation overflow") := by
  rw [feltsToU256, fromBigEndian_toBytesBe, fromBigEndian_toBytesBe, ok_bind, ok_bind, add,
    shift_toNat, feltToU256_toNat]

/-- Canonical answers are exactly what Serde writes. -/
theorem canonical_iff {values : List Felt252} :
    Canonical values ↔ ∃ v : U256, values = Serde.serialize v := by
  constructor
  · intro ⟨hlen, hlt⟩
    obtain ⟨low, high, rfl⟩ := List.length_eq_two.mp hlen
    have hlow : low.val < 2 ^ 128 := hlt low (by simp)
    have hhigh : high.val < 2 ^ 128 := hlt high (by simp)
    refine ⟨BitVec.ofNat 256 (low.val + high.val * 2 ^ 128), ?_⟩
    -- the two words of the sum are the two felts
    have hval : (BitVec.ofNat 256 (low.val + high.val * 2 ^ 128)).toNat
        = low.val + high.val * 2 ^ 128 := by
      rw [BitVec.toNat_ofNat]
      omega
    have hl : (u128ToFelt (U256.low (BitVec.ofNat 256 (low.val + high.val * 2 ^ 128)))) = low := by
      apply Fin.ext
      show (U256.low _).toNat = low.val
      rw [U256.low_toNat, hval, Limbs.low_eq_mod]
      omega
    have hh : (u128ToFelt (U256.high (BitVec.ofNat 256 (low.val + high.val * 2 ^ 128))))
        = high := by
      apply Fin.ext
      show (U256.high _).toNat = high.val
      rw [U256.high_toNat, hval, Limbs.high_eq_div]
      omega
    show [low, high] = [u128ToFelt _, u128ToFelt _]
    rw [hl, hh]
  · intro ⟨v, hv⟩
    subst hv
    refine ⟨rfl, ?_⟩
    intro x hx
    have hx : x = u128ToFelt v.low ∨ x = u128ToFelt v.high := by
      simpa [Serde.serialize] using hx
    cases hx with
    | inl h => exact h ▸ v.low.isLt
    | inr h => exact h ▸ v.high.isLt

/-! ## Strict decoding -/

/-- What a strict decoder does with an answer. -/
structure Strict (values : List Felt252) : Prop where
  noPanic : ∀ message, feltsToU256 values ≠ .error (.panic message)
  ok_iff : (∃ v, feltsToU256 values = .ok v) ↔ Canonical values
  restored : ∀ v, feltsToU256 values = .ok v → intoFelt v = .ok values
  refused : ¬ Canonical values → ∃ report, feltsToU256 values = .error (.error report)

/-- The answers without two felts, and those of two words. -/
def InRange (values : List Felt252) : Prop :=
  values.length = 2 → ∀ x ∈ values, x.val < 2 ^ 128

theorem strict_of_canonical {values : List Felt252} (h : Canonical values) : Strict values := by
  obtain ⟨v, rfl⟩ := canonical_iff.mp h
  have hok : feltsToU256 (Serde.serialize v) = .ok v := feltsToU256_serialize v
  refine ⟨?_, iff_of_true ⟨v, hok⟩ h, ?_, fun hn => absurd h hn⟩
  · intro message hpanic
    rw [hok] at hpanic
    cases hpanic
  · intro v' hv'
    rw [hok] at hv'
    cases hv'
    exact intoFelt_eq v

theorem strict_of_length {values : List Felt252} (h : values.length ≠ 2) : Strict values := by
  have hrefused := feltsToU256_length h
  have hnot : ¬ Canonical values := fun hc => h hc.1
  refine ⟨?_, iff_of_false ?_ hnot, ?_, fun _ => ⟨_, hrefused⟩⟩
  · intro message hpanic
    rw [hrefused] at hpanic
    cases hpanic
  · intro ⟨v, hv⟩
    rw [hrefused] at hv
    cases hv
  · intro v hv
    rw [hrefused] at hv
    cases hv

/-- Two felts that are not two words never give the error they should. -/
theorem feltsToU256_pair_ne_error (low high : Felt252) (report : String) :
    feltsToU256 [low, high] ≠ .error (.error report) := by
  intro h
  rw [feltsToU256_pair] at h
  split at h <;> cases h

theorem inRange_of_strict {values : List Felt252} (h : Strict values) : InRange values := by
  intro hlen
  by_cases hc : Canonical values
  · exact hc.2
  · obtain ⟨report, hreport⟩ := h.refused hc
    obtain ⟨low, high, rfl⟩ := List.length_eq_two.mp hlen
    exact absurd hreport (feltsToU256_pair_ne_error low high report)

theorem strict_iff {values : List Felt252} : Strict values ↔ InRange values := by
  refine ⟨inRange_of_strict, fun hrange => ?_⟩
  by_cases hlen : values.length = 2
  · exact strict_of_canonical ⟨hlen, hrange hlen⟩
  · exact strict_of_length hlen

/-- **Decoding is strict exactly on the answers in range**: on these nothing
panics, what is accepted is what `into_felt` writes, and no two of them give
the same root. -/
theorem feltsToU256_strict_iff (values : List Felt252) :
    (Strict values ↔ InRange values)
      ∧ ∀ values' v, InRange values → InRange values' →
          feltsToU256 values = .ok v → feltsToU256 values' = .ok v → values = values' := by
  refine ⟨strict_iff, fun values' v hrange hrange' hv hv' => ?_⟩
  -- both are the words of `v`
  have hwords := (strict_iff.mpr hrange).restored v hv
  have hwords' := (strict_iff.mpr hrange').restored v hv'
  exact Except.ok.inj (hwords.symm.trans hwords')

/-! ## Answers out of range -/

/-- The high word of a root, with a bit above it. -/
def aliasHigh (v : U256) : Felt252 :=
  ⟨v.high.toNat + 2 ^ 128, by
    have hlt := v.high.isLt
    rw [feltPrime]
    omega⟩

theorem aliasHigh_val (v : U256) : (aliasHigh v).val = v.high.toNat + 2 ^ 128 := rfl

/-- **Every root has a second answer**: the bit above the high word is lost. -/
theorem feltsToU256_alias (v : U256) :
    feltsToU256 [u128ToFelt v.low, aliasHigh v] = .ok v
      ∧ [u128ToFelt v.low, aliasHigh v] ≠ Serde.serialize v := by
  have hlow := v.low.isLt
  have hhigh := v.high.isLt
  have hval : v.toNat = v.low.toNat + v.high.toNat * 2 ^ 128 := by
    rw [U256.low_toNat, U256.high_toNat, Limbs.low_eq_mod, Limbs.high_eq_div]
    omega
  have hword : (aliasHigh v).val % 2 ^ 128 = v.high.toNat := by
    rw [aliasHigh_val]
    omega
  have hfits : (u128ToFelt v.low).val + (aliasHigh v).val % 2 ^ 128 * 2 ^ 128 < 2 ^ 256 := by
    rw [hword]
    show v.low.toNat + v.high.toNat * 2 ^ 128 < 2 ^ 256
    omega
  refine ⟨?_, ?_⟩
  · rw [feltsToU256_pair, if_pos hfits]
    apply congrArg Except.ok
    apply BitVec.eq_of_toNat_eq
    rw [BitVec.toNat_add, shift_toNat, feltToU256_toNat, Nat.mod_eq_of_lt hfits, hword, hval]
    rfl
  · intro heq
    have hsame : aliasHigh v = u128ToFelt v.high := (List.cons.inj (List.cons.inj heq).2).1
    have hlt : (aliasHigh v).val < 2 ^ 128 := hsame ▸ hhigh
    rw [aliasHigh_val] at hlt
    exact absurd hlt (Nat.not_lt.mpr (Nat.le_add_left _ _))

/-- `[2^128, 2^128 - 1]` panics, and `[0, 2^128]` is read as zero, as `[0, 0]`
is. -/
theorem two_answers_one_root :
    feltsToU256 [⟨2 ^ 128, by decide⟩, ⟨2 ^ 128 - 1, by decide⟩]
        = .error (.panic "arithmetic operation overflow")
      ∧ feltsToU256 [0, ⟨2 ^ 128, by decide⟩] = .ok 0
      ∧ feltsToU256 [0, 0] = .ok 0
      ∧ intoFelt 0 = .ok [0, 0] := by
  simp only [feltsToU256_pair]
  decide

end Utils

end WorldIDBridge.Service
