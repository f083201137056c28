import Mathlib.Data.List.Basic
import Mathlib.Data.List.Nodup

/-!
# A write-once register with an expiry window

Keys are admitted at most once, each with the time of its admission. The
key admitted last is always good; an earlier key is good as long as its
age does not exceed the window. This is the abstract picture of a root
history: nothing here mentions how a contract stores it.
-/

/-- Admitted keys with their times, newest first, and the current window.
A key is admitted once: the field `once` carries it. -/
structure Registry (κ : Type*) where
  entries : List (κ × Nat)
  window : Nat
  once : (entries.map Prod.fst).Nodup

namespace Registry

variable {κ : Type*}

/-- The register before any key. -/
def empty (window : Nat) : Registry κ := ⟨[], window, by simp⟩

/-- Every key admitted so far, newest first. -/
def keys (g : Registry κ) : List κ := g.entries.map Prod.fst

/-- Admission of a fresh key at time `t`. -/
def enter (g : Registry κ) (k : κ) (t : Nat) (h : k ∉ g.keys) : Registry κ :=
  ⟨(k, t) :: g.entries, g.window, by
    rw [List.map_cons, List.nodup_cons]; exact ⟨h, g.once⟩⟩

/-- Replacement of the window. -/
def setWindow (g : Registry κ) (w : Nat) : Registry κ := ⟨g.entries, w, g.once⟩

/-- The key admitted last. -/
def latest? (g : Registry κ) : Option κ := g.keys.head?

@[simp] theorem entries_empty (w : Nat) : (empty w : Registry κ).entries = [] := rfl
@[simp] theorem window_empty (w : Nat) : (empty w : Registry κ).window = w := rfl
@[simp] theorem entries_enter (g : Registry κ) (k : κ) (t : Nat) (h : k ∉ g.keys) :
    (g.enter k t h).entries = (k, t) :: g.entries := rfl
@[simp] theorem window_enter (g : Registry κ) (k : κ) (t : Nat) (h : k ∉ g.keys) :
    (g.enter k t h).window = g.window := rfl
@[simp] theorem entries_setWindow (g : Registry κ) (w : Nat) :
    (g.setWindow w).entries = g.entries := rfl
@[simp] theorem window_setWindow (g : Registry κ) (w : Nat) :
    (g.setWindow w).window = w := rfl
@[simp] theorem latest?_empty (w : Nat) : (empty w : Registry κ).latest? = none := rfl
@[simp] theorem latest?_enter (g : Registry κ) (k : κ) (t : Nat) (h : k ∉ g.keys) :
    (g.enter k t h).latest? = some k := rfl
@[simp] theorem latest?_setWindow (g : Registry κ) (w : Nat) :
    (g.setWindow w).latest? = g.latest? := rfl

theorem mem_keys_of_mem {g : Registry κ} {k : κ} {t : Nat}
    (h : (k, t) ∈ g.entries) : k ∈ g.keys :=
  List.mem_map.mpr ⟨(k, t), h, rfl⟩

theorem mem_keys_of_latest {g : Registry κ} {k : κ} (h : g.latest? = some k) :
    k ∈ g.keys := List.mem_of_mem_head? h

/-! ## Times -/

variable [DecidableEq κ]

/-- The time a key was admitted at. -/
def timeOf? (g : Registry κ) (k : κ) : Option Nat :=
  (g.entries.find? (fun e => e.1 = k)).map Prod.snd

@[simp] theorem timeOf?_empty (w : Nat) (k : κ) :
    (empty w : Registry κ).timeOf? k = none := rfl

@[simp] theorem timeOf?_setWindow (g : Registry κ) (w : Nat) (k : κ) :
    (g.setWindow w).timeOf? k = g.timeOf? k := rfl

theorem timeOf?_enter (g : Registry κ) (k : κ) (t : Nat) (h : k ∉ g.keys) (k' : κ) :
    (g.enter k t h).timeOf? k' = if k = k' then some t else g.timeOf? k' := by
  by_cases hk : k = k' <;> simp [timeOf?, hk]

theorem timeOf?_eq_none {g : Registry κ} {k : κ} :
    g.timeOf? k = none ↔ k ∉ g.keys := by
  simp only [timeOf?, keys, Option.map_eq_none_iff, List.find?_eq_none,
    decide_eq_true_eq, List.mem_map, not_exists, not_and]

/-- Each key has one time: the one it was admitted with. -/
theorem timeOf?_eq_some {g : Registry κ} {k : κ} {t : Nat} :
    g.timeOf? k = some t ↔ (k, t) ∈ g.entries := by
  obtain ⟨l, w, hl⟩ := g
  induction l with
  | nil => simp [timeOf?]
  | cons e l ih =>
      obtain ⟨k₀, t₀⟩ := e
      rw [List.map_cons, List.nodup_cons] at hl
      have ih := ih hl.2
      simp only [timeOf?] at ih
      by_cases hk : k₀ = k
      · subst hk
        have hfresh : (k₀, t) ∉ l := fun hm =>
          hl.1 (List.mem_map.mpr ⟨(k₀, t), hm, rfl⟩)
        simp [timeOf?, hfresh, eq_comm]
      · have hk' : ¬ k = k₀ := fun h => hk h.symm
        simp only [timeOf?, List.find?_cons, hk, decide_false, ih, List.mem_cons,
          Prod.mk.injEq, hk', false_and, false_or]

/-! ## Status of a key -/

/-- What the register says of a key at a given time. -/
inductive Status where
  | valid
  | unknown
  | expired
  deriving DecidableEq, Repr

/-- The newest key is valid; another key is valid while its age is within
the window. -/
def status (g : Registry κ) (k : κ) (now : Nat) : Status :=
  match g.timeOf? k with
  | none => .unknown
  | some t => if g.latest? = some k ∨ now - t ≤ g.window then .valid else .expired

theorem status_eq_unknown {g : Registry κ} {k : κ} {now : Nat} :
    g.status k now = .unknown ↔ ∀ t, (k, t) ∉ g.entries := by
  simp only [← timeOf?_eq_some, status]
  cases h : g.timeOf? k with
  | none => simp
  | some t => simp only [Option.some.injEq]; split <;> simp

theorem status_eq_valid {g : Registry κ} {k : κ} {now : Nat} :
    g.status k now = .valid
      ↔ ∃ t, (k, t) ∈ g.entries ∧ (g.latest? = some k ∨ now - t ≤ g.window) := by
  simp only [← timeOf?_eq_some, status]
  cases h : g.timeOf? k with
  | none => simp
  | some t =>
      simp only [Option.some.injEq, exists_eq_left']
      split
      · rename_i hv; exact iff_of_true rfl hv
      · rename_i hv; exact iff_of_false nofun hv

theorem status_eq_expired {g : Registry κ} {k : κ} {now : Nat} :
    g.status k now = .expired
      ↔ ∃ t, (k, t) ∈ g.entries ∧ g.latest? ≠ some k ∧ g.window < now - t := by
  simp only [← timeOf?_eq_some, status]
  cases h : g.timeOf? k with
  | none => simp
  | some t =>
      simp only [Option.some.injEq, exists_eq_left', ← Nat.not_le, ne_eq, ← not_or]
      split
      · rename_i hv; exact iff_of_false nofun (not_not_intro hv)
      · rename_i hv; exact iff_of_true rfl hv

/-! ## Later registers -/

/-- `g'` is `g` after more admissions; the window is free. -/
def Extends (g g' : Registry κ) : Prop := g.entries <:+ g'.entries

omit [DecidableEq κ] in
theorem Extends.refl (g : Registry κ) : Extends g g := List.suffix_refl _

omit [DecidableEq κ] in
theorem Extends.trans {g g' g'' : Registry κ} (h : Extends g g')
    (h' : Extends g' g'') : Extends g g'' := List.IsSuffix.trans h h'

/-- An admission time is never revised. -/
theorem Extends.timeOf? {g g' : Registry κ} (h : Extends g g') {k : κ} {t : Nat}
    (hk : g.timeOf? k = some t) : g'.timeOf? k = some t := by
  rw [timeOf?_eq_some] at hk ⊢
  exact h.subset hk

omit [DecidableEq κ] in
/-- A key that is known but not the newest never becomes the newest again. -/
theorem Extends.latest?_ne {g g' : Registry κ} (h : Extends g g') {k : κ}
    (hk : k ∈ g.keys) (hne : g.latest? ≠ some k) : g'.latest? ≠ some k := by
  obtain ⟨new, hnew⟩ := h
  intro hlast
  cases new with
  | nil =>
      refine hne ?_
      simp only [latest?, keys] at hlast ⊢
      rwa [← hnew] at hlast
  | cons e new =>
      -- the newest entry is a new one, so its key would be admitted twice
      have hnd := g'.once
      simp only [latest?, keys] at hlast
      rw [← hnew] at hnd hlast
      simp only [List.cons_append, List.map_cons, List.head?_cons,
        Option.some.injEq] at hlast
      simp only [List.cons_append, List.map_cons, List.map_append,
        List.nodup_cons, List.mem_append] at hnd
      exact hnd.1 (.inr (hlast ▸ hk))

/-- **No revival**: an expired key stays expired as long as the window is
not widened, whatever is admitted meanwhile. -/
theorem Extends.expired {g g' : Registry κ} (h : Extends g g') {k : κ}
    {now now' : Nat} (hw : g'.window ≤ g.window) (hnow : now ≤ now')
    (hk : g.status k now = .expired) : g'.status k now' = .expired := by
  rw [status_eq_expired] at hk ⊢
  obtain ⟨t, hmem, hne, hold⟩ := hk
  exact ⟨t, h.subset hmem, h.latest?_ne (mem_keys_of_mem hmem) hne, by omega⟩

end Registry
