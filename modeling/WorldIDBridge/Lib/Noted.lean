import WorldIDBridge.Lib.Outcome

/-!
# Programs that make notes

A program may make notes beside its requests: a line of a log, a counter to
be increased. A note is a request to which there is only one answer, so it
cannot change what the program does. `erase` takes the notes out. The runs of
a program and those of its erasure are the same but for the notes, in both
directions, so what holds of the one's requests holds of the other's.
-/

/-- Requests of `Q`, and notes of `N`. -/
inductive Noted (Q N : Type) where
  | ask (q : Q)
  | note (n : N)
  deriving DecidableEq, Repr

/-- The answers to requests; a note has nothing to be answered. -/
@[reducible] def Noted.Answer {Q N : Type} (R : Q → Type) : Noted Q N → Type
  | ask q => R q
  | note _ => Unit

namespace Prog

variable {Q N : Type} {R : Q → Type} {α β : Type}

/-- Programs that make notes. -/
abbrev WithNotes (Q N : Type) (R : Q → Type) := Prog (Noted Q N) (Noted.Answer R)

/-- The program without its notes. -/
def erase : WithNotes Q N R α → Prog Q R α
  | ret a => ret a
  | panic => panic
  | call (.ask q) k => call q fun a => (k a).erase
  | call (.note _) k => (k ()).erase

/-- A program that makes no notes. -/
def quiet : Prog Q R α → WithNotes Q N R α
  | ret a => ret a
  | panic => panic
  | call q k => call (.ask q) fun a => (k a).quiet

@[simp] theorem erase_ret (a : α) : (ret a : WithNotes Q N R α).erase = ret a := rfl

@[simp] theorem erase_panic : (panic : WithNotes Q N R α).erase = panic := rfl

@[simp] theorem erase_quiet (p : Prog Q R α) : (p.quiet : WithNotes Q N R α).erase = p := by
  induction p with
  | ret a => rfl
  | panic => rfl
  | call q k ih =>
      show call q _ = call q k
      congr 1
      funext a
      exact ih a

theorem erase_bind {p : WithNotes Q N R α} {f : α → WithNotes Q N R β} :
    (p.bind f).erase = p.erase.bind fun a => (f a).erase := by
  induction p with
  | ret a => rfl
  | panic => rfl
  | call q k ih =>
      cases q with
      | ask q =>
          show call q _ = call q _
          congr 1
          funext a
          exact ih a
      | note n => exact ih ()

/-- The bind of `ExceptT` without its notes. -/
theorem erase_run_bind {ε : Type} {x : ExceptT ε (WithNotes Q N R) α}
    {f : α → ExceptT ε (WithNotes Q N R) β} :
    (x >>= f).run.erase = x.run.erase.bind fun r => match r with
      | .ok a => (f a).run.erase
      | .error e => ret (.error e) := by
  rw [run_bind, erase_bind]
  congr 1
  funext r
  cases r <;> rfl

theorem erase_mapErr {ε δ : Type} (f : δ → ε) (p : WithNotes Q N R (Except δ α)) :
    (mapErr f p).run.erase = (mapErr f p.erase).run := erase_bind

theorem erase_lift {ε : Type} (p : WithNotes Q N R α) :
    (ExceptT.lift p : ExceptT ε (WithNotes Q N R) α).run.erase = (ExceptT.lift p.erase).run :=
  erase_bind

theorem erase_unwrap (o : Option α) : (unwrap o : WithNotes Q N R α).erase = unwrap o := by
  cases o <;> rfl

/-! ## Runs -/

/-- The exchange, if it is not a note. -/
def asked? : Exchange (Noted Q N) (Noted.Answer R) → Option (Exchange Q R)
  | ⟨.ask q, a⟩ => some ⟨q, a⟩
  | ⟨.note _, _⟩ => none

theorem filterMap_asked?_notes (ns : List N) :
    (ns.map fun n => (⟨.note n, ()⟩ : Exchange (Noted Q N) (Noted.Answer R))).filterMap asked?
      = [] := by
  induction ns with
  | nil => rfl
  | cons n ns ih => exact ih

/-- A run of a program is one of its erasure. -/
theorem Performs.erase {p p' : WithNotes Q N R α}
    {tr : List (Exchange (Noted Q N) (Noted.Answer R))} (h : Performs p tr p') :
    Performs p.erase (tr.filterMap asked?) p'.erase := by
  induction h with
  | done p => exact .done _
  | @step q k a tr p _ ih =>
      cases q with
      | ask q => exact .step ih
      | note n => exact ih

/-- A run of the erasure is a run of the program, but for the notes. -/
theorem Performs.of_erase {p : WithNotes Q N R α} {q : Prog Q R α} {tr : List (Exchange Q R)}
    (h : Performs p.erase tr q) :
    ∃ tr' p', Performs p tr' p' ∧ tr'.filterMap asked? = tr ∧ p'.erase = q := by
  induction p generalizing tr with
  | ret a =>
      cases h with
      | done _ => exact ⟨[], ret a, .done _, rfl, rfl⟩
  | panic =>
      cases h with
      | done _ => exact ⟨[], panic, .done _, rfl, rfl⟩
  | call x k ih =>
      cases x with
      | note n =>
          obtain ⟨tr', p', hp, htr, hq⟩ := ih () h
          exact ⟨⟨.note n, ()⟩ :: tr', p', .step hp, htr, hq⟩
      | ask x =>
          cases h with
          | done _ => exact ⟨[], call (.ask x) k, .done _, rfl, rfl⟩
          | @step _ _ a _ _ h =>
              obtain ⟨tr', p', hp, rfl, hq⟩ := ih a h
              exact ⟨⟨.ask x, a⟩ :: tr', p', .step hp, rfl, hq⟩

/-! ## One answer at a time -/

section Reply

variable [DecidableEq Q] [DecidableEq N] {p p' : WithNotes Q N R α}

theorem reply?_ask (q : Q) (a : R q) (k : R q → WithNotes Q N R α) :
    (call (.ask q) k : WithNotes Q N R α).reply? ⟨.ask q, a⟩ = some (k a) := dif_pos rfl

theorem reply?_note (n : N) (k : Unit → WithNotes Q N R α) :
    (call (.note n) k : WithNotes Q N R α).reply? ⟨.note n, ()⟩ = some (k ()) := dif_pos rfl

theorem erase_of_reply?_ask {q : Q} {a : R q} (h : p.reply? ⟨.ask q, a⟩ = some p') :
    p.erase.reply? ⟨q, a⟩ = some p'.erase := by
  obtain ⟨k, rfl, rfl⟩ := reply?_eq_some h
  exact reply?_call ⟨q, a⟩ fun a => (k a).erase

theorem erase_of_reply?_note {n : N} (h : p.reply? ⟨.note n, ()⟩ = some p') :
    p'.erase = p.erase := by
  obtain ⟨k, rfl, rfl⟩ := reply?_eq_some h
  rfl

/-- The program has no note to make before its next request. -/
def Flushed (p : WithNotes Q N R α) : Prop := ∀ n k, p ≠ call (.note n) k

/-- What the erasure is answered, a program with no note to make is. -/
theorem Flushed.reply? {q : Q} {a : R q} {r : Prog Q R α} (hp : Flushed p)
    (h : p.erase.reply? ⟨q, a⟩ = some r) :
    ∃ p', p.reply? ⟨.ask q, a⟩ = some p' ∧ p'.erase = r := by
  cases p with
  | ret a => cases h
  | panic => cases h
  | call x k =>
      cases x with
      | note n => exact absurd rfl (hp n k)
      | ask x =>
          obtain ⟨k', heq, rfl⟩ := reply?_eq_some h
          cases heq
          exact ⟨k a, reply?_ask _ a k, rfl⟩

/-- **Any program gets to its next request** by making its notes. -/
theorem exists_flushed (p : WithNotes Q N R α) :
    ∃ (ns : List N) (p' : WithNotes Q N R α),
      p.replay? (ns.map fun n => ⟨.note n, ()⟩) = some p' ∧ Flushed p' ∧ p'.erase = p.erase := by
  induction p with
  | ret a =>
      refine ⟨[], ret a, rfl, ?_, rfl⟩
      intro n k h
      cases h
  | panic =>
      refine ⟨[], panic, rfl, ?_, rfl⟩
      intro n k h
      cases h
  | call x k ih =>
      cases x with
      | ask q =>
          refine ⟨[], call (.ask q) k, rfl, ?_, rfl⟩
          intro n k' h
          cases h
      | note n =>
          obtain ⟨ns, p', hreplay, hflushed, herase⟩ := ih ()
          refine ⟨n :: ns, p', ?_, hflushed, herase⟩
          rw [List.map_cons, replay?, reply?_note]
          exact hreplay

/-- **The runs to a result are the same but for the notes.** -/
theorem performs_erase_ret_iff {p : WithNotes Q N R α} {tr : List (Exchange Q R)} {a : α} :
    Performs p.erase tr (ret a)
      ↔ ∃ tr', Performs p tr' (ret a) ∧ tr'.filterMap asked? = tr := by
  constructor
  · intro h
    obtain ⟨tr₁, p₁, hp, rfl, hret⟩ := h.of_erase
    obtain ⟨ns, p₂, hreplay, hflushed, herase⟩ := exists_flushed p₁
    -- what is left makes its notes and returns
    have hlast : p₂ = ret a := by
      rw [hret] at herase
      cases p₂ with
      | ret b =>
          cases herase
          rfl
      | panic => cases herase
      | call x k =>
          cases x with
          | ask q => cases herase
          | note n => exact absurd rfl (hflushed n k)
    subst hlast
    refine ⟨tr₁ ++ ns.map fun n => ⟨.note n, ()⟩, hp.append (.of_replay? hreplay), ?_⟩
    rw [List.filterMap_append, filterMap_asked?_notes, List.append_nil]
  · rintro ⟨tr', hp, rfl⟩
    exact hp.erase

end Reply

/-! ## Monitors -/

/-- A monitor of requests and notes, on the requests. -/
def onRequests {σ : Type} (M : Monitor (Noted Q N) (Noted.Answer R) σ) : Monitor Q R σ where
  allows s q := M.allows s (.ask q)
  next s q a := M.next s (.ask q) a

/-- A program that makes no notes is watched by its requests. -/
theorem outcome_quiet {σ : Type} {M : Monitor (Noted Q N) (Noted.Answer R) σ}
    {rely : (x : Noted Q N) → Noted.Answer R x → Prop} {p : Prog Q R α}
    {post : Option α → σ → Prop} {s : σ} :
    p.quiet.outcome M rely post s
      ↔ p.outcome (onRequests M) (fun q a => rely (.ask q) a) post s := by
  induction p generalizing s with
  | ret a => rfl
  | panic => rfl
  | call q k ih =>
      exact and_congr_right fun _ => forall_congr' fun a => imp_congr_right fun _ => ih a

end Prog
