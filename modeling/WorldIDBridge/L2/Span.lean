import WorldIDBridge.L2.Cairo

/-!
# Spans and their Serde

A span is a view of an array, so it has fewer than `2^32` elements. Its
Serde form is its length followed by its elements, each in its own form;
nothing marks where an element or the span ends, and reading it back works
because the length comes first.
-/

namespace WorldIDBridge.L2

abbrev U32 := BitVec 32
abbrev U96 := BitVec 96

/-! ## Words below the prime -/

/-- The Serde form of an unsigned word: one felt. -/
@[reducible] def wordSerde (w : Nat) (hw : 2 ^ w ≤ feltPrime) : Serde (BitVec w) where
  serialize v := [⟨v.toNat, Nat.lt_of_lt_of_le v.isLt hw⟩]
  deserialize
    | [] => none
    | x :: rest => if x.val < 2 ^ w then some (BitVec.ofNat w x.val, rest) else none
  deserialize_serialize v rest := by
    show (if v.toNat < 2 ^ w then some (BitVec.ofNat w v.toNat, rest) else none) = _
    rw [if_pos v.isLt, BitVec.ofNat_toNat, BitVec.setWidth_eq]

instance : Serde U32 := wordSerde 32 (by decide)

instance : Serde U96 := wordSerde 96 (by decide)

/-! ## Spans -/

structure Span (α : Type) where
  elems : List α
  size : elems.length < 2 ^ 32

namespace Span

variable {α : Type}

theorem ext {s t : Span α} (h : s.elems = t.elems) : s = t := by
  cases s
  cases t
  cases h
  rfl

/-- `span.slice(start, length)`: panics outside the span. -/
def slice? (s : Span α) (start length : Nat) : Option (Span α) :=
  if start + length ≤ s.elems.length then
    some ⟨(s.elems.drop start).take length, by
      have hsize := s.size
      rw [List.length_take, List.length_drop]
      omega⟩
  else none

/-- The length of a span, as the felt in front of it. -/
def lengthFelt (s : Span α) : Felt252 :=
  ⟨s.elems.length, Nat.lt_trans s.size (by decide)⟩

/-- Reads `n` values off the front. -/
def deserializeMany (α : Type) [Serde α] : Nat → List Felt252 → Option (List α × List Felt252)
  | 0, serialized => some ([], serialized)
  | n + 1, serialized => do
      let (a, serialized) ← Serde.deserialize serialized
      let (as, serialized) ← deserializeMany α n serialized
      return (a :: as, serialized)

variable [Serde α]

/-- What was written element by element is read back element by element,
whatever follows. -/
theorem deserializeMany_flatMap (as : List α) (rest : List Felt252) :
    deserializeMany α as.length (as.flatMap Serde.serialize ++ rest) = some (as, rest) := by
  induction as with
  | nil => rfl
  | cons a as ih =>
      rw [List.length_cons, List.flatMap_cons, List.append_assoc, deserializeMany,
        Serde.deserialize_serialize]
      simp only [Option.bind_eq_bind, Option.bind_some, ih]
      rfl

instance : Serde (Span α) where
  serialize s := s.lengthFelt :: s.elems.flatMap Serde.serialize
  deserialize
    | [] => none
    | n :: rest => do
        let (as, rest) ← deserializeMany α n.val rest
        -- no span in memory is longer
        if h : as.length < 2 ^ 32 then return (⟨as, h⟩, rest) else none
  deserialize_serialize s rest := by
    show (deserializeMany α s.elems.length (s.elems.flatMap Serde.serialize ++ rest)).bind _ = _
    rw [deserializeMany_flatMap, Option.bind_some]
    exact dif_pos s.size

end Span

end WorldIDBridge.L2
