import Mathlib.Algebra.Group.Nat.Defs
import Mathlib.Data.Nat.Basic

/-!
# Two limbs of a machine word

A value of up to `2 * w` bits as a low and a high limb of `w` bits. The
limbs are taken with a mask and a shift, as word code takes them, and the
facts below say that this is a bijection with pairs of `w`-bit values.
-/

namespace Limbs

/-- The low limb: the value under a `w`-bit mask. -/
def low (w v : Nat) : Nat := v &&& (2 ^ w - 1)

/-- The high limb: the value shifted down by `w` bits. -/
def high (w v : Nat) : Nat := v >>> w

/-- The value of two limbs. -/
def join (w lo hi : Nat) : Nat := lo + hi * 2 ^ w

theorem low_eq_mod (w v : Nat) : low w v = v % 2 ^ w :=
  Nat.and_two_pow_sub_one_eq_mod v w

theorem high_eq_div (w v : Nat) : high w v = v / 2 ^ w :=
  Nat.shiftRight_eq_div_pow v w

theorem low_lt (w v : Nat) : low w v < 2 ^ w := by
  rw [low_eq_mod]
  exact Nat.mod_lt _ (Nat.two_pow_pos w)

theorem high_lt {w u v : Nat} (h : v < 2 ^ (w + u)) : high w v < 2 ^ u := by
  rw [high_eq_div, Nat.div_lt_iff_lt_mul (Nat.two_pow_pos w), ← Nat.pow_add,
    Nat.add_comm u w]
  exact h

theorem join_low_high (w v : Nat) : join w (low w v) (high w v) = v := by
  rw [join, low_eq_mod, high_eq_div, Nat.mul_comm]
  exact Nat.mod_add_div v (2 ^ w)

end Limbs
