import WorldIDBridge.Lib.Interaction

/-!
# What a program comes to

`Prog.wp` says nothing of a panic. Here a program comes to an outcome, the
value it returns or none for a panic, and `outcome` asks the postcondition of
both. The answers of the environment may be restricted by what it is relied
on to do. `Within` bounds the requests of every run.
-/

namespace Prog

variable {Q : Type} {R : Q → Type} {α β ε δ σ : Type}

/-! ## The outcome under a monitor -/

section Outcome

variable (M : Monitor Q R σ) (rely : (q : Q) → R q → Prop)

/-- The program makes only requests the monitor allows, and its outcome meets
the postcondition, as long as the answers are those relied on. -/
def outcome : Prog Q R α → (Option α → σ → Prop) → σ → Prop
  | ret a, post, s => post (some a) s
  | panic, post, s => post none s
  | call q k, post, s => M.allows s q ∧ ∀ a, rely q a → (k a).outcome post (M.next s q a)

/-- The environment answered as it is relied on to. -/
def Relied (tr : List (Exchange Q R)) : Prop := ∀ x ∈ tr, rely x.1 x.2

variable {M rely} {s : σ}

theorem outcome_bind {p : Prog Q R α} {f : α → Prog Q R β} {post : Option β → σ → Prop} :
    (p.bind f).outcome M rely post s
      ↔ p.outcome M rely (fun o s => match o with
          | some a => (f a).outcome M rely post s
          | none => post none s) s := by
  induction p generalizing s with
  | ret a => rfl
  | panic => rfl
  | call q k ih => exact and_congr_right fun _ => forall_congr' fun a => imp_congr_right fun _ => ih a

theorem outcome_mono {p : Prog Q R α} {post post' : Option α → σ → Prop}
    (h : p.outcome M rely post s) (himp : ∀ o s, post o s → post' o s) :
    p.outcome M rely post' s := by
  induction p generalizing s with
  | ret a => exact himp (some a) s h
  | panic => exact himp none s h
  | call q k ih => exact ⟨h.1, fun a ha => ih a (h.2 a ha)⟩

theorem outcome_congr {p : Prog Q R α} {post post' : Option α → σ → Prop}
    (h : ∀ o s, post o s ↔ post' o s) : p.outcome M rely post s ↔ p.outcome M rely post' s :=
  ⟨fun hp => outcome_mono hp fun o s => (h o s).mp, fun hp => outcome_mono hp fun o s => (h o s).mpr⟩

/-- A fallible sequence: the rest runs on a value, an error is the result, and
a panic is a panic. -/
theorem outcome_run_bind {x : ExceptT ε (Prog Q R) α} {f : α → ExceptT ε (Prog Q R) β}
    {post : Option (Except ε β) → σ → Prop} :
    (x >>= f).run.outcome M rely post s
      ↔ x.run.outcome M rely (fun o s => match o with
          | some (.ok a) => (f a).run.outcome M rely post s
          | some (.error e) => post (some (.error e)) s
          | none => post none s) s := by
  rw [run_bind, outcome_bind]
  apply outcome_congr
  intro o s
  cases o with
  | none => rfl
  | some r => cases r <;> rfl

theorem outcome_mapErr_bind {f : δ → ε} {p : Prog Q R (Except δ α)}
    {g : α → ExceptT ε (Prog Q R) β} {post : Option (Except ε β) → σ → Prop} :
    (mapErr f p >>= g).run.outcome M rely post s
      ↔ p.outcome M rely (fun o s => match o with
          | some (.ok a) => (g a).run.outcome M rely post s
          | some (.error e) => post (some (.error (f e))) s
          | none => post none s) s := by
  have h : (mapErr f p).run = p.bind fun r => ret (r.mapError f) := rfl
  rw [outcome_run_bind, h, outcome_bind]
  apply outcome_congr
  intro o s
  cases o with
  | none => rfl
  | some r => cases r <;> rfl

theorem outcome_lift_bind {p : Prog Q R α} {g : α → ExceptT ε (Prog Q R) β}
    {post : Option (Except ε β) → σ → Prop} :
    (ExceptT.lift p >>= g).run.outcome M rely post s
      ↔ p.outcome M rely (fun o s => match o with
          | some a => (g a).run.outcome M rely post s
          | none => post none s) s := by
  have h : (ExceptT.lift p : ExceptT ε (Prog Q R) α).run = p.bind fun a => ret (.ok a) := rfl
  rw [outcome_run_bind, h, outcome_bind]
  apply outcome_congr
  intro o s
  cases o <;> rfl

theorem outcome_unwrap {o : Option α} {post : Option α → σ → Prop} :
    (unwrap o : Prog Q R α).outcome M rely post s ↔ post o s := by
  cases o <;> rfl

/-- **Soundness**: what is left of the program after relied-on answers still
meets its postcondition. -/
theorem Performs.outcome {p p' : Prog Q R α} {tr : List (Exchange Q R)}
    {post : Option α → σ → Prop} (hp : Performs p tr p') (hrely : Relied rely tr)
    (h : p.outcome M rely post s) : p'.outcome M rely post (M.after s tr) := by
  induction hp generalizing s with
  | done p => exact h
  | step _ ih =>
      exact ih (fun x hx => hrely x (List.mem_cons_of_mem _ hx))
        (h.2 _ (hrely _ (List.mem_cons_self ..)))

/-- An answered request was allowed, and the rest of the program goes on from
the monitor's next state, if the answer is one relied on. -/
theorem outcome_of_reply? [DecidableEq Q] {p p' : Prog Q R α} {x : Exchange Q R}
    {post : Option α → σ → Prop} (h : p.outcome M rely post s) (hreply : p.reply? x = some p')
    (hrely : rely x.1 x.2) : M.allows s x.1 ∧ p'.outcome M rely post (M.next s x.1 x.2) := by
  obtain ⟨k, rfl, rfl⟩ := reply?_eq_some hreply
  exact ⟨h.1, h.2 x.2 hrely⟩

/-- A run that returns, of a program that has not met its postcondition yet,
goes on with an allowed request. -/
theorem Performs.forced {p p' : Prog Q R α} {tr : List (Exchange Q R)}
    {post : Option α → σ → Prop} (hp : Performs p tr p') (hrely : Relied rely tr)
    (h : p.outcome M rely post s) {b : α} (hret : p' = ret b)
    (hpending : ∀ a, ¬ post (some a) s) :
    ∃ x rest p₁, tr = x :: rest ∧ M.allows s x.1 ∧ Performs p₁ rest p'
      ∧ p₁.outcome M rely post (M.next s x.1 x.2) := by
  subst hret
  cases p with
  | ret a => exact absurd h (hpending a)
  | panic => cases hp
  | call q k =>
      cases hp with
      | @step _ _ a rest _ hrest =>
          refine ⟨⟨q, a⟩, rest, k a, rfl, h.1, hrest, h.2 a ?_⟩
          exact hrely ⟨q, a⟩ (List.mem_cons_self ..)

end Outcome

@[simp] theorem reply?_call [DecidableEq Q] (x : Exchange Q R) (k : R x.1 → Prog Q R α) :
    (call x.1 k).reply? x = some (k x.2) := by
  obtain ⟨q, a⟩ := x
  exact dif_pos rfl

/-- An answered program is another one: what is left is a part of it. -/
theorem reply?_ne_self [DecidableEq Q] {p : Prog Q R α} {x : Exchange Q R} :
    p.reply? x ≠ some p := by
  induction p generalizing x with
  | ret a => simp [reply?]
  | panic => simp [reply?]
  | call q k ih =>
      intro h
      obtain ⟨k', hcall, hrest⟩ := reply?_eq_some h
      obtain ⟨q', a⟩ := x
      injection hcall with hq hk
      subst hq
      obtain rfl := eq_of_heq hk
      -- the rest is the program once more, and would be answered with itself as well
      refine ih a (x := ⟨q, a⟩) ?_
      rw [← hrest]
      exact h

/-- A run up to some point, and from there on. -/
theorem Performs.split {p p' : Prog Q R α} {tr₁ tr₂ : List (Exchange Q R)}
    (h : Performs p (tr₁ ++ tr₂) p') : ∃ q, Performs p tr₁ q ∧ Performs q tr₂ p' := by
  induction tr₁ generalizing p with
  | nil => exact ⟨p, .done p, h⟩
  | cons x tr₁ ih =>
      cases h with
      | step h =>
          obtain ⟨q, hq, hrest⟩ := ih h
          exact ⟨q, .step hq, hrest⟩

/-- A run that goes on. -/
theorem Performs.append {p p' p'' : Prog Q R α} {tr₁ tr₂ : List (Exchange Q R)}
    (h₁ : Performs p tr₁ p') (h₂ : Performs p' tr₂ p'') : Performs p (tr₁ ++ tr₂) p'' := by
  induction h₁ with
  | done p => exact h₂
  | step _ ih => exact .step (ih h₂)

/-- A run with one more answer. -/
theorem Performs.snoc [DecidableEq Q] {p p' p'' : Prog Q R α} {tr : List (Exchange Q R)}
    {x : Exchange Q R} (h : Performs p tr p') (hreply : p'.reply? x = some p'') :
    Performs p (tr ++ [x]) p'' := by
  obtain ⟨k, rfl, rfl⟩ := reply?_eq_some hreply
  exact h.append (.step (.done _))

/-! ## The answers a program panics on -/

section Alarm

variable (bad : Exchange Q R → Bool)

/-- The monitor that notices a bad answer, and allows nothing after it. -/
def alarm : Monitor Q R Bool where
  allows s _ := s = false
  next s q a := s || bad ⟨q, a⟩

/-- The program panics on a bad answer, at once, and on no other. -/
def PanicsOn (p : Prog Q R α) : Prop :=
  p.outcome (alarm bad) (fun _ _ => True) (fun o s => s = o.isNone) false

@[simp] theorem alarm_next (s : Bool) (q : Q) (a : R q) :
    (alarm bad).next s q a = (s || bad ⟨q, a⟩) := rfl

variable {bad}

theorem panicsOn_ret (a : α) : PanicsOn bad (ret a) := rfl

theorem PanicsOn.bind {p : Prog Q R α} {f : α → Prog Q R β} (hp : PanicsOn bad p)
    (hf : ∀ a, PanicsOn bad (f a)) : PanicsOn bad (p.bind f) := by
  rw [PanicsOn, outcome_bind]
  refine outcome_mono hp fun o s h => ?_
  cases o with
  | none => exact h
  | some a =>
      subst h
      exact hf a

theorem panicsOn_ask {q : Q} (h : ∀ a, bad ⟨q, a⟩ = false) :
    PanicsOn bad (ask q : Prog Q R (R q)) := by
  refine ⟨rfl, fun a _ => ?_⟩
  rw [alarm_next, h a]
  rfl

/-- **Which answer ends the program**: in every run, an answer is followed by
the panic exactly when it is a bad one. -/
theorem PanicsOn.panic_iff [DecidableEq Q] {p₀ p p' : Prog Q R α} {tr : List (Exchange Q R)}
    {x : Exchange Q R} (hp₀ : PanicsOn bad p₀) (hrun : Performs p₀ tr p)
    (hreply : p.reply? x = some p') : p' = panic ↔ bad x = true := by
  have hp := hrun.outcome (fun _ _ => trivial) hp₀
  obtain ⟨hquiet, hp'⟩ := outcome_of_reply? hp hreply trivial
  have halarm : (alarm bad).after false tr = false := hquiet
  rw [alarm_next, halarm, Bool.false_or] at hp'
  cases p' with
  | ret a =>
      have hfine : bad x = false := hp'
      rw [hfine]
      exact iff_of_false (by simp) (by simp)
  | panic => exact iff_of_true rfl hp'
  | call q k =>
      have hfine : bad x = false := hp'.1
      rw [hfine]
      exact iff_of_false (by simp) (by simp)

end Alarm

/-! ## A monitor that remembers -/

section Past

variable (allowed : List (Exchange Q R) → Q → Prop)

/-- The monitor whose state is the exchanges so far. -/
def past : Monitor Q R (List (Exchange Q R)) where
  allows := allowed
  next s q a := s ++ [⟨q, a⟩]

@[simp] theorem past_allows (s : List (Exchange Q R)) (q : Q) :
    (past allowed).allows s q = allowed s q := rfl

@[simp] theorem past_next (s : List (Exchange Q R)) (q : Q) (a : R q) :
    (past allowed).next s q a = s ++ [⟨q, a⟩] := rfl

theorem after_past (s tr : List (Exchange Q R)) : (past allowed).after s tr = s ++ tr := by
  induction tr generalizing s with
  | nil => exact (List.append_nil s).symm
  | cons x tr ih =>
      obtain ⟨q, a⟩ := x
      show (past allowed).after (s ++ [⟨q, a⟩]) tr = s ++ ⟨q, a⟩ :: tr
      rw [ih, List.append_assoc]
      rfl

variable {allowed}

/-- **Every request of a run was allowed by the exchanges before it.** -/
theorem Performs.allowed_past {p p' : Prog Q R α} {before after : List (Exchange Q R)}
    {x : Exchange Q R} {post : α → List (Exchange Q R) → Prop}
    (h : Performs p (before ++ x :: after) p') (hp : p.wp (past allowed) post []) :
    allowed before x.1 := by
  obtain ⟨q, hbefore, hrest⟩ := h.split
  have hq := hbefore.wp hp
  rw [after_past, List.nil_append] at hq
  cases hrest with
  | step _ => exact hq.1

end Past

/-! ## A bound on the requests -/

/-- Every run makes at most `n` requests. -/
def Within : Nat → Prog Q R α → Prop
  | _, ret _ => True
  | _, panic => True
  | 0, call _ _ => False
  | n + 1, call _ k => ∀ a, Within n (k a)

theorem within_ret {n : Nat} {a : α} : Within n (ret a : Prog Q R α) := by
  cases n <;> trivial

theorem within_panic {n : Nat} : Within n (panic : Prog Q R α) := by
  cases n <;> trivial

theorem Within.mono {p : Prog Q R α} {m n : Nat} (h : Within m p) (hle : m ≤ n) :
    Within n p := by
  induction p generalizing m n with
  | ret a => exact within_ret
  | panic => exact within_panic
  | call q k ih =>
      cases m with
      | zero => exact h.elim
      | succ m =>
          cases n with
          | zero => omega
          | succ n => exact fun a => ih a (h a) (by omega)

theorem Within.bind {p : Prog Q R α} {f : α → Prog Q R β} {m n : Nat} (hp : Within m p)
    (hf : ∀ a, Within n (f a)) : Within (m + n) (p.bind f) := by
  induction p generalizing m with
  | ret a => exact (hf a).mono (by omega)
  | panic => exact within_panic
  | call q k ih =>
      cases m with
      | zero => exact hp.elim
      | succ m =>
          rw [Nat.succ_add]
          exact fun a => ih a (hp a)

theorem Within.run_bind {x : ExceptT ε (Prog Q R) α} {f : α → ExceptT ε (Prog Q R) β} {m n : Nat}
    (hx : Within m x.run) (hf : ∀ a, Within n (f a).run) : Within (m + n) (x >>= f).run := by
  rw [Prog.run_bind]
  refine hx.bind fun r => ?_
  cases r with
  | ok a => exact hf a
  | error e => exact within_ret

/-- A step that makes no request of its own. -/
theorem Within.map {p : Prog Q R α} {n : Nat} (hp : Within n p) (f : α → β) :
    Within n (p.bind fun a => ret (f a)) := hp.bind (n := 0) fun _ => trivial

theorem within_mapErr {f : δ → ε} {p : Prog Q R (Except δ α)} {n : Nat} (hp : Within n p) :
    Within n (mapErr f p).run := hp.map _

theorem within_lift {p : Prog Q R α} {n : Nat} (hp : Within n p) :
    Within n (ExceptT.lift p : ExceptT ε (Prog Q R) α).run := hp.map _

theorem within_unwrap {o : Option α} : Within 0 (unwrap o : Prog Q R α) := by
  cases o <;> trivial

theorem within_ask (q : Q) : Within 1 (ask q : Prog Q R (R q)) := fun _ => trivial

/-- An answer is one request less. -/
theorem Within.reply? [DecidableEq Q] {p p' : Prog Q R α} {x : Exchange Q R} {n : Nat}
    (h : Within n p) (hreply : p.reply? x = some p') : ∃ m, n = m + 1 ∧ Within m p' := by
  obtain ⟨k, rfl, rfl⟩ := reply?_eq_some hreply
  cases n with
  | zero => exact h.elim
  | succ n => exact ⟨n, rfl, h x.2⟩

/-- The rest of a program makes no more requests than the program. -/
theorem Performs.within {p p' : Prog Q R α} {tr : List (Exchange Q R)} {n : Nat}
    (hp : Performs p tr p') (h : Within n p) : Within n p' := by
  induction hp generalizing n with
  | done p => exact h
  | step _ ih =>
      cases n with
      | zero => exact h.elim
      | succ n => exact (ih (h _)).mono (Nat.le_succ n)

theorem Performs.length_le {p p' : Prog Q R α} {tr : List (Exchange Q R)} {n : Nat}
    (hp : Performs p tr p') (h : Within n p) : tr.length ≤ n := by
  induction hp generalizing n with
  | done p => exact Nat.zero_le n
  | step _ ih =>
      cases n with
      | zero => exact h.elim
      | succ n => exact Nat.succ_le_succ (ih (h _))

end Prog
