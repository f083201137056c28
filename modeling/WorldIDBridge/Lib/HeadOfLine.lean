import WorldIDBridge.Lib.TransitionRun

/-!
# An item that blocks its line

A server takes the items of a line one after the other, in the order they
arrived, until it stops. An item it cannot serve is the last it gets to: what
waits behind it is never served, in any run.
-/

namespace HeadOfLine

open TransitionRun

/-- What a state says of the line: the items waiting, those served, both oldest
first, and whether the server has stopped. -/
structure Line (σ ε : Type*) where
  waiting : σ → List ε
  served : σ → List ε
  stopped : σ → Prop

variable {σ α ε : Type*}

/-- What a step may do: items arrive, the first one is served if it can be, or
the server stops. A server that stopped serves nothing more. -/
inductive Line.Step (L : Line σ ε) (servable : ε → Prop) (s s' : σ) : Prop where
  | arrive (more : List ε) (running : ¬ L.stopped s)
      (waiting : L.waiting s' = L.waiting s ++ more) (served : L.served s' = L.served s)
  | serve (x : ε) (running : ¬ L.stopped s) (can : servable x)
      (waiting : L.waiting s = x :: L.waiting s') (served : L.served s' = L.served s ++ [x])
  | stop (stopped : L.stopped s') (served : L.served s' = L.served s)

/-- A step that changes nothing of the line. -/
theorem Line.Step.same {L : Line σ ε} {servable : ε → Prop} {s s' : σ}
    (hwaiting : L.waiting s' = L.waiting s) (hserved : L.served s' = L.served s)
    (hstopped : L.stopped s → L.stopped s') : L.Step servable s s' := by
  by_cases h : L.stopped s
  · exact .stop (hstopped h) hserved
  · exact .arrive [] h (by rw [hwaiting, List.append_nil]) hserved

/-- The line of a part of the state. -/
def Line.comap {τ : Type*} (L : Line σ ε) (part : τ → σ) : Line τ ε where
  waiting t := L.waiting (part t)
  served t := L.served (part t)
  stopped t := L.stopped (part t)

theorem Line.Step.comap {τ : Type*} {L : Line σ ε} {servable : ε → Prop} {part : τ → σ} {t t' : τ}
    (h : L.Step servable (part t) (part t')) : (L.comap part).Step servable t t' := by
  cases h with
  | arrive more hrunning hwaiting hserved => exact .arrive more hrunning hwaiting hserved
  | serve x hrunning hcan hwaiting hserved => exact .serve x hrunning hcan hwaiting hserved
  | stop hstopped hserved => exact .stop hstopped hserved

/-- The items served since are the first of those ahead of `x`; the others are
still waiting, and so is `x`, or the server has stopped. -/
structure Line.Blocked (L : Line σ ε) (past ahead : List ε) (x : ε) (done : List ε) (s : σ) :
    Prop where
  served : L.served s = past ++ done
  reached : done <+: ahead
  waiting : L.stopped s ∨ ∃ rest behind, ahead = done ++ rest
    ∧ L.waiting s = rest ++ x :: behind

variable {L : Line σ ε} {past ahead : List ε} {x : ε}

/-- One step of a blocked line. -/
theorem Line.Blocked.step {servable : ε → Prop} (hx : ¬ servable x) {done : List ε} {s s' : σ}
    (h : L.Blocked past ahead x done s) (hstep : L.Step servable s s') :
    ∃ done', L.Blocked past ahead x done' s' := by
  cases hstep with
  | arrive more hrunning hwaiting hserved =>
      refine ⟨done, hserved.trans h.served, h.reached, .inr ?_⟩
      obtain ⟨rest, behind, hahead, hline⟩ := h.waiting.resolve_left hrunning
      exact ⟨rest, behind ++ more, hahead, by rw [hwaiting, hline]; simp⟩
  | serve y hrunning hcan hwaiting hserved =>
      obtain ⟨rest, behind, hahead, hline⟩ := h.waiting.resolve_left hrunning
      cases rest with
      | nil =>
          -- the item served would be `x`
          rw [hline, List.nil_append] at hwaiting
          exact absurd ((List.cons.inj hwaiting).1 ▸ hcan) hx
      | cons z rest =>
          rw [hline, List.cons_append] at hwaiting
          obtain ⟨rfl, hrest⟩ := List.cons.inj hwaiting
          refine ⟨done ++ [z], ?_, ?_, .inr ⟨rest, behind, ?_, hrest.symm⟩⟩
          · rw [hserved, h.served, List.append_assoc]
          · exact ⟨rest, by rw [hahead]; simp⟩
          · rw [hahead]
            simp
  | stop hstopped hserved => exact ⟨done, hserved.trans h.served, h.reached, .inl hstopped⟩

/-- **Nothing behind the item is served**: if the item can be served in no
state of the run, what the run serves is ahead of it. -/
theorem Line.blocked_run (step : σ → α → σ) (servable : σ → ε → Prop) {I : σ → Prop}
    {P : σ → α → Prop}
    (hinv : ∀ s a, I s → P s a → I (step s a))
    (hstep : ∀ s a, I s → P s a → L.Step (servable s) s (step s a))
    (hx : ∀ s, I s → ¬ servable s x) {s : σ} {as : List α} {behind : List ε} (hI : I s)
    (hline : L.waiting s = ahead ++ x :: behind) (hP : Along step P s as) :
    ∃ done, L.Blocked (L.served s) ahead x done (run step s as) := by
  have hstart : L.Blocked (L.served s) ahead x [] s :=
    ⟨(List.append_nil _).symm, List.nil_prefix, .inr ⟨ahead, behind, rfl, hline⟩⟩
  have hrun : I (run step s as)
      ∧ ∃ done, L.Blocked (L.served s) ahead x done (run step s as) := by
    refine run_invariant step
      (I := fun s' => I s' ∧ ∃ done, L.Blocked (L.served s) ahead x done s') ?_
      ⟨hI, [], hstart⟩ hP
    intro s₁ a hs₁ ha
    obtain ⟨hI₁, done, hblocked⟩ := hs₁
    exact ⟨hinv s₁ a hI₁ ha, hblocked.step (hx s₁ hI₁) (hstep s₁ a hI₁ ha)⟩
  exact hrun.2

end HeadOfLine
