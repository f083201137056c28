import WorldIDBridge.Service.Submitters
import WorldIDBridge.Service.Telemetry

/-!
# The two tasks with telemetry

The executor and the poller with the metrics they share. A note is a step of
its own, so the notes of one task fall between any two steps of the other.
The system without telemetry is this one without its notes, in both
directions.
-/

namespace WorldIDBridge.Service

open Prog TransitionRun Telemetry

/-- The two tasks as in `Submitters`, with the metrics they share. `answered`
is what they were answered and `results` what their calls returned, both
newest first. -/
structure Metered where
  calls : Submitter → Option (MeteredTask (Except StateBridgeError Unit))
  count : Nat
  broadcast : List Eip1559Transaction
  included : List Eip1559Transaction
  metrics : Metrics
  answered : Trace
  results : List (Except StateBridgeError Unit)

namespace Metered

/-- A request answered, or a note made. -/
abbrev Move := Exchange (Noted Request Note) (Noted.Answer Response)

inductive Action where
  /-- A task calls `propagate_root_with_retry`. -/
  | call (t : Submitter) (value : U256)
  /-- The pending request of a task is answered, or its pending note made. -/
  | reply (t : Submitter) (x : Move)
  /-- A block includes a transaction of the service. -/
  | mine (tx : Eip1559Transaction)
  /-- A block includes another transaction of the wallet. -/
  | mineOther

/-- A task that is not in a call. -/
def Idle (s : Metered) (t : Submitter) : Bool :=
  match s.calls t with
  | none => true
  | some (.ret _) => true
  | some _ => false

/-- What a move records. -/
def recordedBy (m : Metrics) : Move → Metrics
  | ⟨.note n, _⟩ => m.record n
  | ⟨.ask _, _⟩ => m

/-- The result of a call that returned. -/
def returned : MeteredTask (Except StateBridgeError Unit) → List (Except StateBridgeError Unit)
  | .ret r => [r]
  | _ => []

/-- A task goes on. -/
def move (s : Metered) (t : Submitter) (prog : MeteredTask (Except StateBridgeError Unit))
    (x : Move) : Metered :=
  { s with
    calls := Function.update s.calls t (some prog)
    broadcast := (asked? x).elim [] sentIn ++ s.broadcast
    metrics := recordedBy s.metrics x
    answered := (asked? x).toList ++ s.answered
    results := returned prog ++ s.results }

def step (metrics : Bool) (config : Config) (s : Metered) : Action → Metered
  | .call t value =>
      if s.Idle t then
        { s with
          calls := Function.update s.calls t
            (some (Telemetry.propagateRootWithRetry metrics config value)) }
      else s
  | .reply t x =>
      match s.calls t with
      | some prog =>
          match prog.reply? x with
          | some prog' =>
              if (asked? x).all (isLatest config.walletAddress s.count) then s.move t prog' x
              else s
          | none => s
      | none => s
  | .mine tx =>
      if tx ∈ s.broadcast ∧ tx.nonce.toNat = s.count then
        { s with count := s.count + 1, included := tx :: s.included }
      else s
  | .mineOther => { s with count := s.count + 1 }

def start (count : Nat) : Metered := ⟨fun _ => none, count, [], [], .new, [], []⟩

/-! ### Without the notes -/

/-- The state without what is there for the notes. -/
def plain (s : Metered) : Submitters :=
  ⟨Option.map erase ∘ s.calls, s.count, s.broadcast, s.included⟩

/-- The action, if it is not a note. -/
def plain? : Action → Option Submitters.Action
  | .call t value => some (.call t value)
  | .reply t x => (asked? x).map (.reply t)
  | .mine tx => some (.mine tx)
  | .mineOther => some .mineOther

variable {metrics : Bool} {config : Config} {s : Metered}

/-- What one step does: nothing, the start of a call, a move of a task, or an
inclusion. -/
theorem step_cases (metrics : Bool) (config : Config) (s : Metered) (a : Action) :
    s.step metrics config a = s
      ∨ (∃ t value, a = .call t value ∧ s.Idle t = true
          ∧ s.step metrics config a = { s with
            calls := Function.update s.calls t
              (some (Telemetry.propagateRootWithRetry metrics config value)) })
      ∨ (∃ t x prog prog', a = .reply t x ∧ s.calls t = some prog
          ∧ prog.reply? x = some prog'
          ∧ (asked? x).all (isLatest config.walletAddress s.count) = true
          ∧ s.step metrics config a = s.move t prog' x)
      ∨ (∃ tx, a = .mine tx ∧ (tx ∈ s.broadcast ∧ tx.nonce.toNat = s.count)
          ∧ s.step metrics config a
            = { s with count := s.count + 1, included := tx :: s.included })
      ∨ (a = .mineOther ∧ s.step metrics config a = { s with count := s.count + 1 }) := by
  cases a with
  | call t value =>
      simp only [step]
      split
      · rename_i hidle
        exact .inr (.inl ⟨t, value, rfl, hidle, rfl⟩)
      · exact .inl rfl
  | reply t x =>
      simp only [step]
      split
      · rename_i prog hcall
        split
        · rename_i prog' hreply
          split
          · rename_i hlatest
            exact .inr (.inr (.inl ⟨t, x, prog, prog', rfl, hcall, hreply, hlatest, rfl⟩))
          · exact .inl rfl
        · exact .inl rfl
      · exact .inl rfl
  | mine tx =>
      simp only [step]
      split
      · rename_i hincluded
        exact .inr (.inr (.inr (.inl ⟨tx, rfl, hincluded, rfl⟩)))
      · exact .inl rfl
  | mineOther => exact .inr (.inr (.inr (.inr ⟨rfl, rfl⟩)))

theorem plain_calls {t : Submitter} {prog : MeteredTask (Except StateBridgeError Unit)}
    (h : s.calls t = some prog) : s.plain.calls t = some prog.erase := by
  show Option.map erase (s.calls t) = _
  rw [h]
  rfl

theorem plain_idle {t : Submitter} (h : s.Idle t = true) : s.plain.Idle t = true := by
  unfold Idle at h
  unfold Submitters.Idle
  cases hcall : s.calls t with
  | none =>
      have hplain : s.plain.calls t = none := by
        show Option.map erase (s.calls t) = _
        rw [hcall]
        rfl
      rw [hplain]
  | some prog =>
      rw [plain_calls hcall]
      rw [hcall] at h
      cases prog with
      | ret r => rfl
      | _ => cases h

/-- The state without notes after a task goes on. -/
theorem plain_move (t : Submitter) (prog : MeteredTask (Except StateBridgeError Unit)) (x : Move) :
    (s.move t prog x).plain = { s.plain with
      calls := Function.update s.plain.calls t (some prog.erase)
      broadcast := (asked? x).elim [] sentIn ++ s.broadcast } := by
  have hcalls : Option.map erase ∘ Function.update s.calls t (some prog)
      = Function.update (Option.map erase ∘ s.calls) t (some prog.erase) :=
    Function.comp_update _ _ _ _
  simp only [plain, move, hcalls]

/-- A note changes nothing but the metrics. -/
theorem plain_move_note {t : Submitter} {n : Note} {u : Unit}
    {prog prog' : MeteredTask (Except StateBridgeError Unit)} (hcall : s.calls t = some prog)
    (hreply : prog.reply? ⟨.note n, u⟩ = some prog') :
    (s.move t prog' ⟨.note n, u⟩).plain = s.plain := by
  have hsame : Function.update s.plain.calls t (some prog'.erase) = s.plain.calls := by
    rw [erase_of_reply?_note hreply, ← plain_calls hcall, Function.update_eq_self]
  rw [plain_move, hsame]
  rfl

/-! ### One level and the other -/

theorem plain_step_call {t : Submitter} (hidle : s.Idle t = true) {value : U256} :
    (s.step metrics config (.call t value)).plain = s.plain.step config (.call t value) := by
  have hcalls : Option.map erase ∘ Function.update s.calls t
        (some (Telemetry.propagateRootWithRetry metrics config value))
      = Function.update s.plain.calls t (some (Service.propagateRootWithRetry config value)) := by
    rw [← erase_propagateRootWithRetry metrics]
    exact Function.comp_update _ _ _ _
  simp only [step, Submitters.step, hidle, plain_idle hidle, if_true, ← hcalls]
  rfl

theorem plain_step_reply {t : Submitter} {q : Request} {u : Response q}
    {prog prog' : MeteredTask (Except StateBridgeError Unit)} (hcall : s.calls t = some prog)
    (hreply : prog.reply? ⟨.ask q, u⟩ = some prog')
    (hlatest : isLatest config.walletAddress s.count ⟨q, u⟩ = true) :
    (s.move t prog' ⟨.ask q, u⟩).plain = s.plain.step config (.reply t ⟨q, u⟩) := by
  have hlatest' : isLatest config.walletAddress s.plain.count ⟨q, u⟩ = true := hlatest
  rw [plain_move]
  simp only [Submitters.step, plain_calls hcall, erase_of_reply?_ask hreply, hlatest', if_true]
  rfl

theorem plain_step_mine {tx : Eip1559Transaction}
    (hincluded : tx ∈ s.broadcast ∧ tx.nonce.toNat = s.count) :
    (s.step metrics config (.mine tx)).plain = s.plain.step config (.mine tx) := by
  have hplain : tx ∈ s.plain.broadcast ∧ tx.nonce.toNat = s.plain.count := hincluded
  simp only [step, Submitters.step, if_pos hincluded, if_pos hplain]
  rfl

/-- One step with telemetry is hidden without, or one step without. -/
theorem plain_step (s : Metered) (a : Action) :
    (s.step metrics config a).plain = s.plain
      ∨ ∃ b, plain? a = some b
          ∧ (s.step metrics config a).plain = s.plain.step config b := by
  rcases step_cases metrics config s a with heq | ⟨t, value, rfl, hidle, heq⟩
      | ⟨t, ⟨q, u⟩, prog, prog', rfl, hcall, hreply, hlatest, heq⟩ | ⟨tx, rfl, hincluded, heq⟩
      | ⟨rfl, heq⟩
  · exact .inl (by rw [heq])
  · exact .inr ⟨.call t value, rfl, plain_step_call hidle⟩
  · rw [heq]
    cases q with
    | note n => exact .inl (plain_move_note hcall hreply)
    | ask q => exact .inr ⟨.reply t ⟨q, u⟩, rfl, plain_step_reply hcall hreply hlatest⟩
  · exact .inr ⟨.mine tx, rfl, plain_step_mine hincluded⟩
  · exact .inr ⟨.mineOther, rfl, rfl⟩

/-- A task makes the notes it has. -/
theorem run_notes {t : Submitter} {prog prog' : MeteredTask (Except StateBridgeError Unit)}
    {ns : List Note} (hcall : s.calls t = some prog)
    (hreplay : prog.replay? (ns.map fun n => ⟨.note n, ()⟩) = some prog') :
    (run (step metrics config) s (ns.map fun n => .reply t ⟨.note n, ()⟩)).plain = s.plain
      ∧ (run (step metrics config) s (ns.map fun n => .reply t ⟨.note n, ()⟩)).calls t
        = some prog' := by
  induction ns generalizing s prog with
  | nil =>
      obtain rfl := Option.some.inj hreplay
      exact ⟨rfl, hcall⟩
  | cons n ns ih =>
      obtain ⟨prog₁, hreply, hrest⟩ := Option.bind_eq_some_iff.mp hreplay
      have hstep : s.step metrics config (.reply t ⟨.note n, ()⟩)
          = s.move t prog₁ ⟨.note n, ()⟩ := by
        simp only [step, hcall, hreply]
        rfl
      have hnext : (s.move t prog₁ ⟨.note n, ()⟩).calls t = some prog₁ := Function.update_self ..
      obtain ⟨hplain, hcalls⟩ := ih hnext hrest
      rw [List.map_cons, run_cons, hstep]
      exact ⟨hplain.trans (plain_move_note hcall hreply), hcalls⟩

theorem filterMap_plain?_notes (t : Submitter) (ns : List Note) :
    (ns.map fun n => Action.reply t ⟨.note n, ()⟩).filterMap plain? = [] := by
  induction ns with
  | nil => rfl
  | cons n ns ih => exact ih

/-- Any task gets to its next request, and the rest does not see it. -/
theorem exists_run_flushed (metrics : Bool) (config : Config) (s : Metered) (t : Submitter) :
    ∃ as, as.filterMap plain? = [] ∧ (run (step metrics config) s as).plain = s.plain
      ∧ ∀ prog, (run (step metrics config) s as).calls t = some prog → Flushed prog := by
  cases hcall : s.calls t with
  | none =>
      refine ⟨[], rfl, rfl, fun prog h => ?_⟩
      rw [run_nil, hcall] at h
      cases h
  | some prog =>
      obtain ⟨ns, prog', hreplay, hflushed, -⟩ := exists_flushed prog
      obtain ⟨hplain, hcalls⟩ := @run_notes metrics config s t prog prog' ns hcall hreplay
      refine ⟨_, ?_, hplain, fun p hp => ?_⟩
      · exact filterMap_plain?_notes t ns
      · rw [hcalls] at hp
        obtain rfl := Option.some.inj hp
        exact hflushed

theorem idle_iff_of_flushed {t : Submitter} (h : ∀ prog, s.calls t = some prog → Flushed prog) :
    s.Idle t = s.plain.Idle t := by
  cases hcall : s.calls t with
  | none =>
      have hidle : s.Idle t = true := by
        unfold Idle
        rw [hcall]
      rw [hidle, plain_idle hidle]
  | some prog =>
      unfold Idle Submitters.Idle
      rw [hcall, plain_calls hcall]
      cases prog with
      | ret r => rfl
      | panic => rfl
      | call x k =>
          cases x with
          | ask q => rfl
          | note n => exact absurd rfl (h _ hcall n k)

theorem call_of_flushed {t : Submitter} (h : ∀ prog, s.calls t = some prog → Flushed prog)
    (value : U256) :
    (s.step metrics config (.call t value)).plain = s.plain.step config (.call t value) := by
  by_cases hidle : s.Idle t = true
  · rw [plain_step_call hidle]
  · have hplain : ¬ s.plain.Idle t = true := by rwa [← idle_iff_of_flushed h]
    simp only [step, Submitters.step, if_neg hidle, if_neg hplain]

theorem reply_of_flushed {t : Submitter} (h : ∀ prog, s.calls t = some prog → Flushed prog)
    (q : Request) (u : Response q) :
    (s.step metrics config (.reply t ⟨.ask q, u⟩)).plain
      = s.plain.step config (.reply t ⟨q, u⟩) := by
  cases hcall : s.calls t with
  | none =>
      have hplain : s.plain.calls t = none := by
        show Option.map erase (s.calls t) = _
        rw [hcall]
        rfl
      simp only [step, Submitters.step, hcall, hplain]
  | some prog =>
      cases hreply : prog.reply? ⟨.ask q, u⟩ with
      | none =>
          have hnone : prog.erase.reply? ⟨q, u⟩ = none := by
            cases herase : prog.erase.reply? ⟨q, u⟩ with
            | none => rfl
            | some r =>
                obtain ⟨prog', hsome, -⟩ := (h prog hcall).reply? herase
                rw [hreply] at hsome
                cases hsome
          simp only [step, Submitters.step, hcall, hreply, plain_calls hcall, hnone]
      | some prog' =>
          by_cases hlatest : isLatest config.walletAddress s.count ⟨q, u⟩ = true
          · rw [← plain_step_reply hcall hreply hlatest]
            simp only [step, hcall, hreply]
            exact congrArg plain (if_pos hlatest)
          · have hlatest' : ¬ isLatest config.walletAddress s.plain.count ⟨q, u⟩ = true := hlatest
            simp only [step, Submitters.step, hcall, hreply, plain_calls hcall,
              erase_of_reply?_ask hreply, if_neg hlatest']
            exact congrArg plain (if_neg hlatest)

/-- One step without telemetry is a step with it, after some notes. -/
theorem lift_step (metrics : Bool) (config : Config) (s : Metered) (b : Submitters.Action) :
    ∃ as, as.filterMap plain? = [b]
      ∧ (run (step metrics config) s as).plain = s.plain.step config b := by
  cases b with
  | call t value =>
      obtain ⟨as, hact, hplain, hflushed⟩ := exists_run_flushed metrics config s t
      refine ⟨as ++ [.call t value], ?_, ?_⟩
      · rw [List.filterMap_append, hact]
        rfl
      · rw [run_snoc, call_of_flushed hflushed, hplain]
  | reply t x =>
      obtain ⟨as, hact, hplain, hflushed⟩ := exists_run_flushed metrics config s t
      refine ⟨as ++ [.reply t ⟨.ask x.1, x.2⟩], ?_, ?_⟩
      · rw [List.filterMap_append, hact]
        rfl
      · rw [run_snoc, reply_of_flushed hflushed, hplain]
  | mine tx =>
      refine ⟨[.mine tx], rfl, ?_⟩
      show Metered.plain (step metrics config s (.mine tx)) = _
      by_cases hincluded : tx ∈ s.broadcast ∧ tx.nonce.toNat = s.count
      · rw [plain_step_mine hincluded]
      · have hplain : ¬ (tx ∈ s.plain.broadcast ∧ tx.nonce.toNat = s.plain.count) := hincluded
        simp only [step, Submitters.step, if_neg hincluded, if_neg hplain]
  | mineOther => exact ⟨[.mineOther], rfl, rfl⟩

/-- **Telemetry is inert**: with telemetry enabled, each run of the two tasks
is, less its notes and what a task with a note to make refuses, a run without
telemetry to the same state; and each run without is one with telemetry, less
its notes. -/
theorem telemetry_inert (metrics : Bool) (config : Config) (count : Nat) :
    (∀ as, ∃ bs, bs.Sublist (as.filterMap plain?)
        ∧ run (Submitters.step config) (.start count) bs
          = (run (step metrics config) (start count) as).plain)
      ∧ ∀ bs, ∃ as, as.filterMap plain? = bs
        ∧ (run (step metrics config) (start count) as).plain
          = run (Submitters.step config) (.start count) bs :=
  ⟨run_projects (Submitters.step config) (fun s a => plain_step s a) (start count),
    run_lifts (Submitters.step config) (lift_step metrics config) (start count)⟩

end Metered

end WorldIDBridge.Service
