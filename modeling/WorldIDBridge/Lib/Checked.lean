/-!
# Checked computations

Code that checks and then computes is an `Except ε`: an `assert` either
lets the rest run or answers with its error. The lemmas read a computation
that returned: every check passed, and each part returned.
-/

namespace Checked

variable {ε α β : Type}

/-- Goes on if `c` holds, fails with `e` otherwise. -/
def assert (c : Prop) [Decidable c] (e : ε) : Except ε Unit :=
  if c then .ok () else .error e

/-- Fails with `e` if `c` holds, goes on otherwise. -/
def failIf (c : Prop) [Decidable c] (e : ε) : Except ε Unit :=
  if c then .error e else .ok ()

/-- The value of `o`; fails with `e` if there is none. -/
def expect (o : Option α) (e : ε) : Except ε α :=
  match o with
  | some a => .ok a
  | none => .error e

variable {c : Prop} [Decidable c] {e : ε}

theorem assert_pos (h : c) : assert c e = .ok () := if_pos h

theorem assert_neg (h : ¬ c) : assert c e = .error e := if_neg h

theorem failIf_pos (h : c) : failIf c e = .error e := if_pos h

theorem failIf_neg (h : ¬ c) : failIf c e = .ok () := if_neg h

@[simp] theorem assert_eq_ok : assert c e = .ok () ↔ c := by
  by_cases h : c <;> simp [assert, h]

@[simp] theorem ok_bind (a : α) (f : α → Except ε β) : (Except.ok a >>= f) = f a := rfl

@[simp] theorem error_bind (e : ε) (f : α → Except ε β) :
    ((Except.error e : Except ε α) >>= f) = .error e := rfl

@[simp] theorem pure_eq_ok (a : α) : (pure a : Except ε α) = .ok a := rfl

/-- A sequence returns exactly when both parts do. -/
theorem bind_eq_ok {x : Except ε α} {f : α → Except ε β} {b : β} :
    (x >>= f) = .ok b ↔ ∃ a, x = .ok a ∧ f a = .ok b := by
  cases x <;> simp

/-- An asserted sequence returns exactly when the condition holds and the
rest returns. -/
theorem assert_bind_eq_ok {f : Unit → Except ε β} {b : β} :
    (assert c e >>= f) = .ok b ↔ c ∧ f () = .ok b := by
  by_cases h : c
  · rw [assert_pos h, ok_bind]
    exact (and_iff_right h).symm
  · rw [assert_neg h, error_bind]
    exact iff_of_false nofun (fun hc => h hc.1)

theorem failIf_bind_eq_ok {f : Unit → Except ε β} {b : β} :
    (failIf c e >>= f) = .ok b ↔ ¬ c ∧ f () = .ok b := by
  by_cases h : c
  · rw [failIf_pos h, error_bind]
    exact iff_of_false nofun (fun hc => hc.1 h)
  · rw [failIf_neg h, ok_bind]
    exact (and_iff_right h).symm

@[simp] theorem expect_some (a : α) : expect (some a) e = .ok a := rfl

theorem expect_eq_ok {o : Option α} {a : α} : expect o e = .ok a ↔ o = some a := by
  cases o <;> simp [expect]

theorem mapError_eq_ok {δ : Type} {g : ε → δ} {x : Except ε α} {a : α} :
    x.mapError g = .ok a ↔ x = .ok a := by
  cases x with
  | error e => constructor <;> intro h <;> cases h
  | ok a' => constructor <;> intro h <;> cases h <;> rfl

end Checked
