/-!
# Interaction programs

A program that talks to its environment one request at a time: it returns,
it panics, or it makes a request `q` and goes on with the answer, a value
of the type `R q`. What the environment may answer is not part of a
program; a run is the list of exchanges made.

A monitor watches the exchanges of a run and keeps a state of its own.
`wp` says that a program makes only requests the monitor allows, and that
when it returns, its value and the monitor's state meet a postcondition.
-/

/-- A program over requests `Q` with answers `R`. -/
inductive Prog (Q : Type) (R : Q → Type) (α : Type) where
  | ret (a : α)
  | panic
  | call (q : Q) (k : R q → Prog Q R α)

namespace Prog

variable {Q : Type} {R : Q → Type} {α β ε δ σ : Type}

protected def bind : Prog Q R α → (α → Prog Q R β) → Prog Q R β
  | ret a, f => f a
  | panic, _ => panic
  | call q k, f => call q fun a => (k a).bind f

instance : Monad (Prog Q R) where
  pure := ret
  bind := Prog.bind

theorem bind_ret (p : Prog Q R α) : p.bind ret = p := by
  induction p with
  | ret a => rfl
  | panic => rfl
  | call q k ih =>
      show call q _ = call q k
      congr 1
      funext a
      exact ih a

theorem bind_assoc {γ : Type} (p : Prog Q R α) (f : α → Prog Q R β) (g : β → Prog Q R γ) :
    (p.bind f).bind g = p.bind fun a => (f a).bind g := by
  induction p with
  | ret a => rfl
  | panic => rfl
  | call q k ih =>
      show call q _ = call q _
      congr 1
      funext a
      exact ih a

/-- One request. -/
def ask (q : Q) : Prog Q R (R q) := call q ret

/-- A fallible program whose error is converted. -/
def mapErr (f : δ → ε) (p : Prog Q R (Except δ α)) : ExceptT ε (Prog Q R) α :=
  ExceptT.mk (p.bind fun r => ret (r.mapError f))

/-- The value of an answer; a panic if there is none. -/
def unwrap : Option α → Prog Q R α
  | some a => ret a
  | none => panic

/-- The bind of `ExceptT` is a bind of programs that looks at the result. -/
theorem run_bind {x : ExceptT ε (Prog Q R) α} {f : α → ExceptT ε (Prog Q R) β} :
    (x >>= f).run = x.run.bind fun r => match r with
      | .ok a => (f a).run
      | .error e => ret (.error e) := by
  show Prog.bind _ _ = _
  congr 1
  funext r
  cases r <;> rfl

/-! ## Runs -/

/-- A request and its answer. -/
abbrev Exchange (Q : Type) (R : Q → Type) := (q : Q) × R q

/-- The program makes the exchanges of the list and then is the second
program. -/
inductive Performs : Prog Q R α → List (Exchange Q R) → Prog Q R α → Prop where
  | done (p : Prog Q R α) : Performs p [] p
  | step {q : Q} {k : R q → Prog Q R α} {a : R q} {tr : List (Exchange Q R)}
      {p : Prog Q R α} (h : Performs (k a) tr p) : Performs (call q k) (⟨q, a⟩ :: tr) p

/-- A run of a sequence is a run of its first part, still going on, or one
that returned, followed by a run of the second part. -/
theorem Performs.bind_ret {p : Prog Q R α} {f : α → Prog Q R β}
    {tr : List (Exchange Q R)} {b : β} (h : Performs (p.bind f) tr (ret b)) :
    ∃ a tr₁ tr₂, tr = tr₁ ++ tr₂ ∧ Performs p tr₁ (ret a) ∧ Performs (f a) tr₂ (ret b) := by
  induction p generalizing tr with
  | ret a => exact ⟨a, [], tr, rfl, .done _, h⟩
  | panic => cases h
  | call q k ih =>
      cases h with
      | step h =>
          obtain ⟨a, tr₁, tr₂, rfl, h₁, h₂⟩ := ih _ h
          exact ⟨a, _ :: tr₁, tr₂, rfl, .step h₁, h₂⟩

/-- The rest of the program after an answer to its pending request. An
answer to anything else is no answer. -/
def reply? [DecidableEq Q] : Prog Q R α → Exchange Q R → Option (Prog Q R α)
  | call q k, ⟨q', a⟩ => if h : q' = q then some (k (h ▸ a)) else none
  | _, _ => none

theorem reply?_eq_some [DecidableEq Q] {p p' : Prog Q R α} {x : Exchange Q R}
    (h : p.reply? x = some p') : ∃ k, p = call x.1 k ∧ p' = k x.2 := by
  obtain ⟨q', a⟩ := x
  cases p with
  | ret a => cases h
  | panic => cases h
  | call q k =>
      rw [reply?] at h
      split at h
      · rename_i heq
        subst heq
        exact ⟨k, rfl, (Option.some.inj h).symm⟩
      · cases h

/-- The program after the answers of a list, if each answers the request
pending then. -/
def replay? [DecidableEq Q] : Prog Q R α → List (Exchange Q R) → Option (Prog Q R α)
  | p, [] => some p
  | p, x :: tr => (p.reply? x).bind (·.replay? tr)

/-- A trace that replays is performed. -/
theorem Performs.of_replay? [DecidableEq Q] {p p' : Prog Q R α} {tr : List (Exchange Q R)}
    (h : p.replay? tr = some p') : Performs p tr p' := by
  induction tr generalizing p with
  | nil =>
      obtain rfl := Option.some.inj h
      exact .done p
  | cons x tr ih =>
      obtain ⟨p₁, hreply, hrest⟩ := Option.bind_eq_some_iff.mp h
      obtain ⟨k, rfl, rfl⟩ := reply?_eq_some hreply
      exact .step (ih hrest)

/-! ### One environment -/

/-- The run against an environment that answers each request as `answer`
says: its exchanges, and what the program returns; `none` is a panic. -/
def against (answer : ∀ q, R q) : Prog Q R α → List (Exchange Q R) × Option α
  | ret a => ([], some a)
  | panic => ([], none)
  | call q k => (⟨q, answer q⟩ :: ((k (answer q)).against answer).1,
      ((k (answer q)).against answer).2)

variable {answer : ∀ q, R q}

theorem against_bind {p : Prog Q R α} {f : α → Prog Q R β} :
    (p.bind f).against answer = match p.against answer with
      | (tr, some a) => (tr ++ ((f a).against answer).1, ((f a).against answer).2)
      | (tr, none) => (tr, none) := by
  induction p with
  | ret a => rfl
  | panic => rfl
  | call q k ih =>
      simp only [Prog.bind, against, ih (answer q)]
      obtain ⟨tr, r⟩ := (k (answer q)).against answer
      cases r <;> rfl

/-- A fallible sequence against an environment. -/
theorem against_run_bind {x : ExceptT ε (Prog Q R) α} {f : α → ExceptT ε (Prog Q R) β} :
    (x >>= f).run.against answer = match x.run.against answer with
      | (tr, some (.ok a)) =>
          (tr ++ ((f a).run.against answer).1, ((f a).run.against answer).2)
      | (tr, some (.error e)) => (tr, some (.error e))
      | (tr, none) => (tr, none) := by
  rw [run_bind, against_bind]
  obtain ⟨tr, r⟩ := x.run.against answer
  cases r with
  | none => rfl
  | some r =>
      cases r with
      | ok a => rfl
      | error e => simp [against]

end Prog

/-! ## Monitors -/

/-- A watcher of exchanges with states `σ`. -/
structure Monitor (Q : Type) (R : Q → Type) (σ : Type) where
  allows : σ → Q → Prop
  next : σ → (q : Q) → R q → σ

namespace Monitor

variable {Q : Type} {R : Q → Type} {σ : Type}

/-- The state of the monitor after the exchanges. -/
def after (M : Monitor Q R σ) (s : σ) (tr : List (Prog.Exchange Q R)) : σ :=
  tr.foldl (fun s x => M.next s x.1 x.2) s

end Monitor

namespace Prog

variable {Q : Type} {R : Q → Type} {α β ε δ σ : Type} (M : Monitor Q R σ)

/-- **The weakest precondition** of a program under a monitor. A panic meets
every postcondition. -/
def wp : Prog Q R α → (α → σ → Prop) → σ → Prop
  | ret a, post, s => post a s
  | panic, _, _ => True
  | call q k, post, s => M.allows s q ∧ ∀ a, (k a).wp post (M.next s q a)

variable {M} {post : β → σ → Prop} {s : σ}

theorem wp_ret {b : β} : (ret b : Prog Q R β).wp M post s ↔ post b s := Iff.rfl

theorem wp_bind {p : Prog Q R α} {f : α → Prog Q R β} :
    (p.bind f).wp M post s ↔ p.wp M (fun a s => (f a).wp M post s) s := by
  induction p generalizing s with
  | ret a => rfl
  | panic => rfl
  | call q k ih => exact and_congr_right fun _ => forall_congr' fun a => ih a

theorem wp_mono {p : Prog Q R β} {post' : β → σ → Prop} (h : p.wp M post s)
    (himp : ∀ b s, post b s → post' b s) : p.wp M post' s := by
  induction p generalizing s with
  | ret b => exact himp b s h
  | panic => trivial
  | call q k ih => exact ⟨h.1, fun a => ih a (h.2 a)⟩

theorem wp_congr {p : Prog Q R β} {post' : β → σ → Prop} (h : ∀ b s, post b s ↔ post' b s) :
    p.wp M post s ↔ p.wp M post' s :=
  ⟨fun hp => wp_mono hp fun b s => (h b s).mp, fun hp => wp_mono hp fun b s => (h b s).mpr⟩

/-- **Weakening the monitor**: what one monitor allows, another does that
follows it through `Rel`. -/
theorem wp_of_follows {τ : Type} {N : Monitor Q R τ} (Rel : σ → τ → Prop)
    (hallows : ∀ s t q, Rel s t → M.allows s q → N.allows t q)
    (hnext : ∀ s t q a, Rel s t → M.allows s q → Rel (M.next s q a) (N.next t q a))
    {p : Prog Q R β} {t : τ} {post' : β → τ → Prop} (h : p.wp M post s) (hrel : Rel s t)
    (hpost : ∀ b s t, Rel s t → post b s → post' b t) : p.wp N post' t := by
  induction p generalizing s t with
  | ret b => exact hpost b s t hrel h
  | panic => trivial
  | call q k ih => exact ⟨hallows s t q hrel h.1, fun a => ih a (h.2 a) (hnext s t q a hrel h.1)⟩

theorem wp_unwrap {o : Option β} :
    (unwrap o : Prog Q R β).wp M post s ↔ ∀ b, o = some b → post b s := by
  cases o with
  | none => exact iff_of_true trivial nofun
  | some b => exact ⟨fun h b' hb => Option.some.inj hb ▸ h, fun h => h b rfl⟩

/-- A fallible sequence: the rest runs on a value, an error is the result. -/
theorem wp_run_bind {x : ExceptT ε (Prog Q R) α} {f : α → ExceptT ε (Prog Q R) β}
    {post : Except ε β → σ → Prop} :
    (x >>= f).run.wp M post s
      ↔ x.run.wp M (fun r s => match r with
          | .ok a => (f a).run.wp M post s
          | .error e => post (.error e) s) s := by
  rw [run_bind, wp_bind]
  apply wp_congr
  intro r s
  cases r <;> rfl

theorem wp_mapErr {f : δ → ε} {p : Prog Q R (Except δ α)} {post : Except ε α → σ → Prop} :
    (mapErr f p).run.wp M post s
      ↔ p.wp M (fun r s => match r with
          | .ok a => post (.ok a) s
          | .error e => post (.error (f e)) s) s := by
  have h : (mapErr f p).run = p.bind fun r => ret (r.mapError f) := rfl
  rw [h, wp_bind]
  apply wp_congr
  intro r s
  cases r <;> rfl

/-- A fallible step whose error is converted, and the rest. -/
theorem wp_mapErr_bind {f : δ → ε} {p : Prog Q R (Except δ α)}
    {g : α → ExceptT ε (Prog Q R) β} {post : Except ε β → σ → Prop} :
    (mapErr f p >>= g).run.wp M post s
      ↔ p.wp M (fun r s => match r with
          | .ok a => (g a).run.wp M post s
          | .error e => post (.error (f e)) s) s := by
  rw [wp_run_bind, wp_mapErr]

/-- An infallible step, and the rest. -/
theorem wp_lift_bind {p : Prog Q R α} {g : α → ExceptT ε (Prog Q R) β}
    {post : Except ε β → σ → Prop} :
    (ExceptT.lift p >>= g).run.wp M post s
      ↔ p.wp M (fun a s => (g a).run.wp M post s) s := by
  have h : (ExceptT.lift p : ExceptT ε (Prog Q R) α).run = p.bind fun a => ret (.ok a) := rfl
  rw [wp_run_bind, h, wp_bind]
  rfl

/-- **Soundness**: what is left of the program after any exchanges still
meets its postcondition from the monitor's state then; a program that
returned has met it. -/
theorem Performs.wp {p p' : Prog Q R α} {tr : List (Exchange Q R)}
    {post : α → σ → Prop} {s : σ} (hp : Performs p tr p') (h : p.wp M post s) :
    p'.wp M post (M.after s tr) := by
  induction hp generalizing s with
  | done p => exact h
  | step _ ih => exact ih (h.2 _)

/-- An answered request was allowed, and the rest of the program goes on from
the monitor's next state. -/
theorem wp_of_reply? [DecidableEq Q] {p p' : Prog Q R α} {x : Exchange Q R}
    {post : α → σ → Prop} {s : σ} (h : p.wp M post s) (hreply : p.reply? x = some p') :
    M.allows s x.1 ∧ p'.wp M post (M.next s x.1 x.2) := by
  obtain ⟨k, rfl, rfl⟩ := reply?_eq_some hreply
  exact ⟨h.1, h.2 x.2⟩

end Prog
