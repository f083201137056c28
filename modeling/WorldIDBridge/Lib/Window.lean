import Mathlib.Data.List.DropRight
import Mathlib.Data.List.Nodup
import WorldIDBridge.Lib.TransitionRun

/-!
# A bounded window on what was accepted

A window remembers the values it accepted since it was last cleared, and
shows the last `n` of them. It accepts a value that it does not show, so a
value that has left the window can be accepted again; what it shows has no
duplicates, and that is a field of it. Every call first clears a window whose
interval is over.
-/

/-- A window of size `n`: when it was last cleared, and what it accepted since
then, oldest first. -/
structure Window (α : Type*) (n : Nat) where
  since : Nat
  accepted : List α
  nodup : (accepted.rtake n).Nodup

namespace Window

variable {α : Type*} {n : Nat}

/-- The last `n` values accepted. -/
def shown (w : Window α n) : List α := w.accepted.rtake n

theorem shown_nodup (w : Window α n) : w.shown.Nodup := w.nodup

theorem length_shown_le (w : Window α n) : w.shown.length ≤ n := by
  rw [shown, List.rtake, List.length_drop]
  omega

/-- A window cleared at the time `now`. -/
def cleared (now : Nat) : Window α n := ⟨now, [], by simp⟩

@[simp] theorem shown_cleared (now : Nat) : (cleared now : Window α n).shown = [] := by
  simp [shown, cleared]

def refresh (interval now : Nat) (w : Window α n) : Window α n :=
  if w.since + interval ≤ now then cleared now else w

theorem since_refresh_le {interval now : Nat} {w : Window α n} (h : w.since ≤ now) :
    (w.refresh interval now).since ≤ now := by
  unfold refresh
  split
  · exact Nat.le_refl now
  · exact h

/-! ## The last `n` of a list -/

theorem rtake_of_length_le {l : List α} (h : l.length ≤ n) : l.rtake n = l := by
  rw [List.rtake, Nat.sub_eq_zero_of_le h, List.drop_zero]

/-- One value too many: the oldest goes. -/
theorem rtake_of_length_eq {l : List α} (h : l.length = n + 1) : l.rtake n = l.tail := by
  rw [List.rtake, h, Nat.add_sub_cancel_left, List.drop_one]

/-- The last `n` of a list and one more value are among the last `n` of the
list and that value. -/
theorem rtake_snoc (l : List α) (x : α) (n : Nat) :
    (l ++ [x]).rtake n = (l.rtake n ++ [x]).rtake n := by
  cases n with
  | zero => rw [List.rtake_zero, List.rtake_zero]
  | succ n =>
      rw [List.rtake_concat_succ, List.rtake_concat_succ]
      congr 1
      simp only [List.rtake, List.drop_drop, List.length_drop]
      congr 1
      omega

theorem nodup_rtake {l : List α} (h : l.Nodup) (n : Nat) : (l.rtake n).Nodup :=
  h.sublist (List.drop_sublist _ l)

/-! ## Calls -/

variable [DecidableEq α]

/-- Accepts `x` unless it is shown. -/
def insert (w : Window α n) (x : α) : Window α n :=
  if h : x ∈ w.shown then w
  else
    { since := w.since
      accepted := w.accepted ++ [x]
      nodup := by
        rw [rtake_snoc]
        exact nodup_rtake (List.nodup_append_comm.mp (List.nodup_cons.mpr ⟨h, w.nodup⟩)) n }

theorem insert_of_mem {w : Window α n} {x : α} (h : x ∈ w.shown) : w.insert x = w := dif_pos h

theorem shown_insert {w : Window α n} {x : α} (h : x ∉ w.shown) :
    (w.insert x).shown = (w.shown ++ [x]).rtake n := by
  rw [insert, dif_neg h]
  exact rtake_snoc w.accepted x n

theorem since_insert (w : Window α n) (x : α) : (w.insert x).since = w.since := by
  unfold insert
  split <;> rfl

inductive Call (α : Type*) where
  | insert (x : α)
  | contains (x : α)

/-- A call at a time. -/
def call (interval : Nat) (w : Window α n) : Nat × Call α → Window α n
  | (now, .insert x) => (w.refresh interval now).insert x
  | (now, .contains _) => w.refresh interval now

theorem since_call_le {interval : Nat} {w : Window α n} {a : Nat × Call α} (h : w.since ≤ a.1) :
    (w.call interval a).since ≤ a.1 := by
  obtain ⟨now, c⟩ := a
  cases c with
  | insert x =>
      rw [call, since_insert]
      exact since_refresh_le h
  | contains x => exact since_refresh_le h

end Window
