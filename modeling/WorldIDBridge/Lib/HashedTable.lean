import Mathlib.Data.Set.Function
import Mathlib.Logic.Function.Basic

/-!
# Tables keyed by hashes

A table that stores a value under the hash of its key holds a function of the
keys themselves, as long as no two of the keys in use collide.
-/

namespace HashedTable

variable {κ η β : Type*} (hash : κ → η) (S : Set κ)

/-- On the keys of `S` the table holds `f`, each value under its key's hash. -/
def Holds (table : η → β) (f : κ → β) : Prop := ∀ k ∈ S, table (hash k) = f k

variable {hash S}

theorem Holds.const (b : β) : Holds hash S (fun _ => b) (fun _ => b) := fun _ _ => rfl

/-- A write at one key leaves the values of the others. -/
theorem Holds.update [DecidableEq κ] [DecidableEq η] {table : η → β} {f : κ → β}
    (h : Holds hash S table f) (hinj : Set.InjOn hash S) {k : κ} (hk : k ∈ S) (b : β) :
    Holds hash S (Function.update table (hash k) b) (Function.update f k b) := by
  intro k' hk'
  by_cases heq : k' = k
  · subst heq
    rw [Function.update_self, Function.update_self]
  · have hhash : hash k' ≠ hash k := fun hh => heq (hinj hk' hk hh)
    rw [Function.update_of_ne heq, Function.update_of_ne hhash, h k' hk']

/-- The write of a value computed from the one that is there. -/
theorem Holds.modify [DecidableEq κ] [DecidableEq η] {table : η → β} {f : κ → β}
    (h : Holds hash S table f) (hinj : Set.InjOn hash S) {k : κ} (hk : k ∈ S) (g : β → β) :
    Holds hash S (Function.update table (hash k) (g (table (hash k))))
      (Function.update f k (g (f k))) := by
  rw [h k hk]
  exact h.update hinj hk (g (f k))

end HashedTable
