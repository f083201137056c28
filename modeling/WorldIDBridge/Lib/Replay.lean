import Mathlib.Logic.Function.Basic

/-!
# Tables read back from an event log

A program that announces each of its writes can be followed from outside:
the table it holds is its first table with the logged writes replayed. Logs
are newest first, so the value at a key is the newest one written there.
-/

namespace Replay

variable {ε κ β : Type*} [DecidableEq κ] (writes : ε → Option (κ × β)) (init : κ → β)

/-- The table after the writes of a log. -/
def table : List ε → κ → β
  | [] => init
  | e :: es =>
      match writes e with
      | some (k, b) => Function.update (table es) k b
      | none => table es

@[simp] theorem table_nil : table writes init [] = init := rfl

variable {writes init}

theorem table_cons_some {e : ε} {k : κ} {b : β} (h : writes e = some (k, b)) (es : List ε) :
    table writes init (e :: es) = Function.update (table writes init es) k b := by
  simp only [table, h]

theorem table_cons_none {e : ε} (h : writes e = none) (es : List ε) :
    table writes init (e :: es) = table writes init es := by
  simp only [table, h]

/-- No event of the log writes at the key. -/
def Silent (writes : ε → Option (κ × β)) (es : List ε) (k : κ) : Prop :=
  ∀ e ∈ es, ∀ b, writes e ≠ some (k, b)

theorem Silent.table_append {es₁ : List ε} {k : κ} (h : Silent writes es₁ k) (es₂ : List ε) :
    table writes init (es₁ ++ es₂) k = table writes init es₂ k := by
  induction es₁ with
  | nil => rfl
  | cons e es₁ ih =>
      have hrest : Silent writes es₁ k := fun e' he' => h e' (List.mem_cons_of_mem e he')
      rw [List.cons_append]
      cases hw : writes e with
      | none => rw [table_cons_none hw, ih hrest]
      | some w =>
          obtain ⟨k', b⟩ := w
          have hk : k ≠ k' := by
            intro heq
            subst heq
            exact h e List.mem_cons_self b hw
          rw [table_cons_some hw, Function.update_of_ne hk, ih hrest]

/-- What is in the table is what was there first, or what the newest write at
the key wrote. -/
theorem exists_newest {es : List ε} {k : κ} (h : table writes init es k ≠ init k) :
    ∃ es₁ e es₂, es = es₁ ++ e :: es₂ ∧ writes e = some (k, table writes init es k)
      ∧ Silent writes es₁ k := by
  induction es with
  | nil => exact absurd rfl h
  | cons e es ih =>
      cases hw : writes e with
      | none =>
          rw [table_cons_none hw] at h ⊢
          obtain ⟨es₁, e', es₂, rfl, he', hsilent⟩ := ih h
          refine ⟨e :: es₁, e', es₂, rfl, he', ?_⟩
          intro e'' hmem b
          rcases List.mem_cons.mp hmem with heq | hmem
          · rw [heq, hw]
            intro hnone
            cases hnone
          · exact hsilent e'' hmem b
      | some w =>
          obtain ⟨k', b⟩ := w
          by_cases hk : k = k'
          · subst hk
            rw [table_cons_some hw, Function.update_self]
            refine ⟨[], e, es, rfl, hw, ?_⟩
            intro e' hmem
            cases hmem
          · rw [table_cons_some hw, Function.update_of_ne hk] at h ⊢
            obtain ⟨es₁, e', es₂, rfl, he', hsilent⟩ := ih h
            refine ⟨e :: es₁, e', es₂, rfl, he', ?_⟩
            intro e'' hmem b'
            rcases List.mem_cons.mp hmem with heq | hmem
            · rw [heq, hw]
              intro hsome
              exact hk (Prod.mk.inj (Option.some.inj hsome)).1.symm
            · exact hsilent e'' hmem b'

end Replay
