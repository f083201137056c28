import Mathlib.Data.List.Induction

/-!
# Runs of a transition system

A transition system is a total step function `step : σ → α → σ`: an action
that is refused leaves the state as it is. This module has the run of a
list of actions, the predicates "every action of the run meets `P` where
it is taken" (`Along`) and "some earlier action met `P` where it was
taken" (`Earlier`), and the rules that carry an invariant over a run.
-/

namespace TransitionRun

variable {σ α : Type*} (step : σ → α → σ)

/-- The state after the actions `as`, taken in order from `s`. -/
def run (s : σ) (as : List α) : σ := as.foldl step s

@[simp] theorem run_nil (s : σ) : run step s [] = s := rfl

@[simp] theorem run_cons (s : σ) (a : α) (as : List α) :
    run step s (a :: as) = run step (step s a) as := rfl

@[simp] theorem run_append (s : σ) (as bs : List α) :
    run step s (as ++ bs) = run step (run step s as) bs :=
  List.foldl_append

theorem run_snoc (s : σ) (as : List α) (a : α) :
    run step s (as ++ [a]) = step (run step s as) a := by simp

/-! ## Actions along a run -/

/-- Every action of the run meets `P` in the state it is taken in. -/
def Along (P : σ → α → Prop) : σ → List α → Prop
  | _, [] => True
  | s, a :: as => P s a ∧ Along P (step s a) as

@[simp] theorem along_nil (P : σ → α → Prop) (s : σ) :
    Along step P s [] := trivial

@[simp] theorem along_cons (P : σ → α → Prop) (s : σ) (a : α) (as : List α) :
    Along step P s (a :: as) ↔ P s a ∧ Along step P (step s a) as := Iff.rfl

theorem along_append {P : σ → α → Prop} {s : σ} {as bs : List α} :
    Along step P s (as ++ bs)
      ↔ Along step P s as ∧ Along step P (run step s as) bs := by
  induction as generalizing s with
  | nil => simp
  | cons a as ih => simp [ih, and_assoc]

theorem along_snoc {P : σ → α → Prop} {s : σ} {as : List α} {a : α} :
    Along step P s (as ++ [a]) ↔ Along step P s as ∧ P (run step s as) a := by
  simp [along_append]

/-- A condition on the actions alone holds along the run as soon as it
holds of every action in the list. -/
theorem along_of_forall {P : α → Prop} {s : σ} {as : List α}
    (h : ∀ a ∈ as, P a) : Along step (fun _ a => P a) s as := by
  induction as generalizing s with
  | nil => trivial
  | cons a as ih =>
      exact ⟨h a (by simp), ih (fun b hb => h b (by simp [hb]))⟩

theorem along_true (s : σ) (as : List α) : Along step (fun _ _ => True) s as :=
  along_of_forall step fun _ _ => trivial

/-! ## Invariants -/

/-- **The invariant rule**: what holds at the start and is kept by every
step that meets `P` holds after every run whose actions meet `P`. -/
theorem run_invariant {I : σ → Prop} {P : σ → α → Prop}
    (hstep : ∀ s a, I s → P s a → I (step s a)) {s : σ} {as : List α}
    (hs : I s) (hP : Along step P s as) : I (run step s as) := by
  induction as generalizing s with
  | nil => exact hs
  | cons a as ih => exact ih (hstep s a hs hP.1) hP.2

/-- What the invariant and the guard give about an action holds of every
action of the run. -/
theorem along_of_invariant {I : σ → Prop} {P Q : σ → α → Prop}
    (hstep : ∀ s a, I s → P s a → I (step s a)) (hQ : ∀ s a, I s → P s a → Q s a)
    {s : σ} {as : List α} (hs : I s) (hP : Along step P s as) : Along step Q s as := by
  induction as generalizing s with
  | nil => trivial
  | cons a as ih => exact ⟨hQ s a hs hP.1, ih (hstep s a hs hP.1) hP.2⟩

/-- **The invariant rule, exactly**: if the steps that keep `I` are those that
meet `P`, then `I` holds throughout exactly the runs whose actions all meet
`P`. -/
theorem along_invariant_iff {I : σ → Prop} {P : σ → α → Prop}
    (hiff : ∀ s a, I s → (I (step s a) ↔ P s a)) {s : σ} {as : List α} (hs : I s) :
    Along step (fun s a => I (step s a)) s as ↔ Along step P s as := by
  induction as generalizing s with
  | nil => exact Iff.rfl
  | cons a as ih =>
      rw [along_cons, along_cons, hiff s a hs]
      exact and_congr_right fun hP => ih ((hiff s a hs).mpr hP)

/-- A preorder every guarded step respects is respected by the run: the
rule for what only grows. -/
theorem run_rel {R : σ → σ → Prop} {P : σ → α → Prop}
    (hrefl : ∀ s, R s s) (htrans : ∀ s t u, R s t → R t u → R s u)
    (hstep : ∀ s a, P s a → R s (step s a)) {s : σ} {as : List α}
    (hP : Along step P s as) : R s (run step s as) := by
  induction as generalizing s with
  | nil => exact hrefl s
  | cons a as ih => exact htrans _ _ _ (hstep s a hP.1) (ih hP.2)

/-- **What is lost for good**: if the steps that meet `P` keep `I`, and any
other step leaves it for a `D` that excludes it and that no step ends, then
`I` holds after exactly the runs whose actions all meet `P`. -/
theorem run_iff_along {I D : σ → Prop} {P : σ → α → Prop}
    (hkeep : ∀ s a, I s → P s a → I (step s a))
    (hlose : ∀ s a, I s → ¬ P s a → D (step s a))
    (hstay : ∀ s a, D s → D (step s a)) (hexcl : ∀ s, D s → ¬ I s)
    {s : σ} {as : List α} (hs : I s) : I (run step s as) ↔ Along step P s as := by
  refine ⟨fun hend => ?_, run_invariant step hkeep hs⟩
  induction as generalizing s with
  | nil => trivial
  | cons a as ih =>
      -- the first step decides: it keeps `I`, or `D` holds to the end
      by_cases hP : P s a
      · exact ⟨hP, ih (hkeep s a hs hP) hend⟩
      · have hlost : D (run step (step s a) as) :=
          run_invariant step (fun s a hD _ => hstay s a hD) (hlose s a hs hP)
            (along_true step _ as)
        exact absurd hend (hexcl _ hlost)

/-! ## The past of a run -/

/-- Some action of the run met `P` in the state it was taken in. -/
def Earlier (P : σ → α → Prop) (s : σ) (as : List α) : Prop :=
  ∃ as₁ a as₂, as = as₁ ++ a :: as₂ ∧ P (run step s as₁) a

theorem Earlier.snoc {P : σ → α → Prop} {s : σ} {as : List α}
    (h : Earlier step P s as) (a : α) : Earlier step P s (as ++ [a]) := by
  obtain ⟨as₁, b, as₂, rfl, hP⟩ := h
  exact ⟨as₁, b, as₂ ++ [a], by simp, hP⟩

theorem Earlier.last {P : σ → α → Prop} {s : σ} {as : List α} {a : α}
    (h : P (run step s as) a) : Earlier step P s (as ++ [a]) :=
  ⟨as, a, [], rfl, h⟩

@[simp] theorem earlier_nil (P : σ → α → Prop) (s : σ) : ¬ Earlier step P s [] := by
  intro ⟨as₁, a, as₂, hnil, _⟩
  cases as₁ <;> cases hnil

@[simp] theorem earlier_cons {P : σ → α → Prop} {s : σ} {a : α} {as : List α} :
    Earlier step P s (a :: as) ↔ P s a ∨ Earlier step P (step s a) as := by
  constructor
  · intro ⟨as₁, b, as₂, heq, hP⟩
    cases as₁ with
    | nil =>
        cases heq
        exact .inl hP
    | cons c as₁ =>
        cases heq
        exact .inr ⟨as₁, b, as₂, rfl, hP⟩
  · intro h
    cases h with
    | inl hP => exact ⟨[], a, as, rfl, hP⟩
    | inr h =>
        obtain ⟨as₁, b, as₂, rfl, hP⟩ := h
        exact ⟨a :: as₁, b, as₂, rfl, hP⟩

theorem not_earlier_of_along {P Q : σ → α → Prop} (h : ∀ s a, P s a → ¬ Q s a) {s : σ} {as : List α}
    (hP : Along step P s as) : ¬ Earlier step Q s as := by
  intro ⟨as₁, a, as₂, heq, hQ⟩
  subst heq
  exact h _ a ((along_append step).mp hP).2.1 hQ

/-- Every action of the run meets `P`, up to the first that meets `Q`. -/
def Until (P Q : σ → α → Prop) : σ → List α → Prop
  | _, [] => True
  | s, a :: as => Q s a ∨ P s a ∧ Until P Q (step s a) as

/-- **The rule for what is to happen**: if an action that meets `P` meets `Q`
or keeps `I`, then a run whose actions meet `P` until one meets `Q` has had
that one, or `I` holds. -/
theorem earlier_or_invariant {I : σ → Prop} {P Q : σ → α → Prop}
    (hstep : ∀ s a, I s → P s a → Q s a ∨ I (step s a)) {s : σ} {as : List α}
    (hs : I s) (h : Until step P Q s as) : Earlier step Q s as ∨ I (run step s as) := by
  induction as generalizing s with
  | nil => exact .inr hs
  | cons a as ih =>
      rw [earlier_cons, run_cons]
      cases h with
      | inl hQ => exact .inl (.inl hQ)
      | inr h =>
          obtain ⟨hP, hrest⟩ := h
          cases hstep s a hs hP with
          | inl hQ => exact .inl (.inl hQ)
          | inr hnext => exact (ih hnext hrest).imp_left .inr

/-- **The invariant rule with a past**: `I` may mention the actions taken
so far. The induction is on the run from its end. -/
theorem run_history_invariant {I : List α → σ → Prop} {P : σ → α → Prop}
    {s : σ} (hs : I [] s)
    (hstep : ∀ as a, I as (run step s as) → P (run step s as) a →
      I (as ++ [a]) (step (run step s as) a))
    {as : List α} (hP : Along step P s as) : I as (run step s as) := by
  induction as using List.reverseRecOn with
  | nil => exact hs
  | append_singleton as a ih =>
      obtain ⟨hP₁, hP₂⟩ := (along_snoc step).mp hP
      rw [run_snoc]
      exact hstep as a (ih hP₁) hP₂

/-! ## How often something happens -/

section Occurrences

variable (P : σ → α → Prop) [∀ s a, Decidable (P s a)]

/-- How many actions of the run meet `P` in the state they are taken in. -/
def occurrences : σ → List α → Nat
  | _, [] => 0
  | s, a :: as => (if P s a then 1 else 0) + occurrences (step s a) as

theorem occurrences_snoc (s : σ) (as : List α) (a : α) :
    occurrences step P s (as ++ [a])
      = occurrences step P s as + if P (run step s as) a then 1 else 0 := by
  induction as generalizing s with
  | nil => exact Nat.add_comm _ _
  | cons b as ih =>
      rw [List.cons_append, occurrences, ih, occurrences, Nat.add_assoc]
      rfl

/-- An action that does not meet `P` is not counted. -/
theorem occurrences_snoc_of_not {s : σ} {as : List α} {a : α} (h : ¬ P (run step s as) a) :
    occurrences step P s (as ++ [a]) = occurrences step P s as := by
  rw [occurrences_snoc, if_neg h]
  rfl

theorem occurrences_snoc_le (s : σ) (as : List α) (a : α) :
    occurrences step P s (as ++ [a]) ≤ occurrences step P s as + 1 := by
  rw [occurrences_snoc]
  split <;> omega

end Occurrences

/-! ## How often something changes -/

section Changes

variable (own : α → Bool)

/-- How many of the run's actions in `own` change the state they are taken in. -/
noncomputable def changes : σ → List α → Nat :=
  @occurrences _ _ step (fun s a => own a = true ∧ step s a ≠ s)
    fun _ _ => Classical.propDecidable _

theorem changes_snoc_le (s : σ) (as : List α) (a : α) :
    changes step own s (as ++ [a]) ≤ changes step own s as + 1 := by
  let _ : ∀ s a, Decidable (own a = true ∧ step s a ≠ s) := fun _ _ => Classical.propDecidable _
  exact occurrences_snoc_le step _ s as a

/-- An action that changes nothing, or is another one. -/
theorem changes_snoc_of_not (s : σ) (as : List α) {a : α}
    (h : own a = false ∨ step (run step s as) a = run step s as) :
    changes step own s (as ++ [a]) = changes step own s as := by
  let _ : ∀ s a, Decidable (own a = true ∧ step s a ≠ s) := fun _ _ => Classical.propDecidable _
  refine occurrences_snoc_of_not step _ ?_
  intro hchanges
  cases h with
  | inl hother =>
      rw [hother] at hchanges
      exact Bool.false_ne_true hchanges.1
  | inr hsame => exact hchanges.2 hsame

theorem changes_snoc_of_ne (s : σ) (as : List α) {a : α} (hown : own a = true)
    (hne : step (run step s as) a ≠ run step s as) :
    changes step own s (as ++ [a]) = changes step own s as + 1 := by
  let _ : ∀ s a, Decidable (own a = true ∧ step s a ≠ s) := fun _ _ => Classical.propDecidable _
  have hsnoc := occurrences_snoc step (fun s a => own a = true ∧ step s a ≠ s) s as a
  rw [if_pos ⟨hown, hne⟩] at hsnoc
  exact hsnoc

end Changes

/-! ## What the actions put out -/

/-- What the actions of the run put out, each in the state it is taken in. -/
def outputs {ω : Type*} (out : σ → α → Option ω) : σ → List α → List ω
  | _, [] => []
  | s, a :: as => (out s a).toList ++ outputs out (step s a) as

theorem outputs_snoc {ω : Type*} (out : σ → α → Option ω) (s : σ) (as : List α) (a : α) :
    outputs step out s (as ++ [a]) = outputs step out s as ++ (out (run step s as) a).toList := by
  induction as generalizing s with
  | nil => exact List.append_nil _
  | cons b as ih =>
      rw [List.cons_append, outputs, ih, outputs, List.append_assoc]
      rfl

/-! ## Two systems -/

section Projection

variable {τ β : Type*} {step} (stepT : τ → β → τ) {f : σ → τ} {act : α → Option β}

/-- A system whose steps are each hidden from the other, or one of its steps,
runs as the other does. -/
theorem run_projects
    (h : ∀ s a, f (step s a) = f s ∨ ∃ b, act a = some b ∧ f (step s a) = stepT (f s) b)
    (s : σ) (as : List α) :
    ∃ bs, bs.Sublist (as.filterMap act) ∧ run stepT (f s) bs = f (run step s as) := by
  induction as generalizing s with
  | nil => exact ⟨[], .slnil, rfl⟩
  | cons a as ih =>
      obtain ⟨bs, hsub, hrun⟩ := ih (step s a)
      rcases h s a with hhidden | ⟨b, hact, hstep⟩
      · refine ⟨bs, ?_, ?_⟩
        · cases hact : act a with
          | none => rwa [List.filterMap_cons_none hact]
          | some b =>
              rw [List.filterMap_cons_some hact]
              exact hsub.cons b
        · rw [← hhidden, hrun]
          rfl
      · refine ⟨b :: bs, ?_, ?_⟩
        · rw [List.filterMap_cons_some hact]
          exact hsub.cons_cons b
        · rw [run_cons, ← hstep, hrun]
          rfl

/-- **The rule for a simulation**: if, as long as the invariant holds, each step
that meets `P` is a few steps of the other, then so is each run. -/
theorem run_simulates {I : σ → Prop} {P : σ → α → Prop} {Q : β → Prop}
    (hstep : ∀ s a, I s → P s a → I (step s a)
      ∧ ∃ bs, (∀ b ∈ bs, Q b) ∧ f (step s a) = run stepT (f s) bs)
    {s : σ} {as : List α} (hs : I s) (hP : Along step P s as) :
    ∃ bs, (∀ b ∈ bs, Q b) ∧ f (run step s as) = run stepT (f s) bs := by
  induction as generalizing s with
  | nil => exact ⟨[], by simp, rfl⟩
  | cons a as ih =>
      obtain ⟨hnext, bs₁, hQ₁, hrun₁⟩ := hstep s a hs hP.1
      obtain ⟨bs₂, hQ₂, hrun₂⟩ := ih hnext hP.2
      refine ⟨bs₁ ++ bs₂, ?_, ?_⟩
      · intro b hb
        rcases List.mem_append.mp hb with h | h
        · exact hQ₁ b h
        · exact hQ₂ b h
      · rw [run_append, run_cons, hrun₂, hrun₁]

/-- If each step of the other is a few steps of the system, each run of it is
a run of the system. -/
theorem run_lifts
    (h : ∀ s b, ∃ as, as.filterMap act = [b] ∧ f (run step s as) = stepT (f s) b)
    (s : σ) (bs : List β) :
    ∃ as, as.filterMap act = bs ∧ f (run step s as) = run stepT (f s) bs := by
  induction bs generalizing s with
  | nil => exact ⟨[], rfl, rfl⟩
  | cons b bs ih =>
      obtain ⟨as₁, hact₁, hrun₁⟩ := h s b
      obtain ⟨as₂, hact₂, hrun₂⟩ := ih (run step s as₁)
      refine ⟨as₁ ++ as₂, ?_, ?_⟩
      · rw [List.filterMap_append, hact₁, hact₂]
        rfl
      · rw [run_append, hrun₂, hrun₁, run_cons]

end Projection

end TransitionRun
