import Mathlib.Data.List.DropRight
import Mathlib.Data.List.Infix
import WorldIDBridge.Lib.TransitionRun

/-!
# The listener's reconnection loop

`listen_internal` connects, subscribes and reads logs until the stream ends,
over and over. It counts its iterations, and waits between two of them as a
backoff schedule says. An iteration is one step here; what it asked of the
node is its outcome. The module says when the loop gives up, and how long it
waits.
-/

namespace WorldIDBridge.Service

open TransitionRun

/-- A `Duration`, in nanoseconds. -/
abbrev Duration := Nat

/-- `Duration::from_secs`. -/
def fromSecs (secs : Nat) : Duration := secs * 1000000000

/-- `RECONNECT_BACKOFF_SECS`. -/
def reconnectBackoffSecs : List Nat := [5, 10, 15, 20]

/-- `max_retries` zero stands for infinitely many. -/
structure ReconnectionConfig where
  maxRetries : Nat
  backoffSchedule : List Duration
  deriving DecidableEq, Repr

def ReconnectionConfig.default : ReconnectionConfig :=
  ⟨0, reconnectBackoffSecs.map fromSecs⟩

/-! ## The backoff -/

/-- The index saturates at `usize::MAX`, which no schedule reaches. -/
structure Backoff where
  delays : List Duration
  idx : Nat
  deriving DecidableEq, Repr

namespace Backoff

def new (delays : List Duration) : Backoff := ⟨delays, 0⟩

def reset (b : Backoff) : Backoff := { b with idx := 0 }

def nextDelay (b : Backoff) : Duration × Backoff :=
  let delay := b.delays[b.idx]?.getD (b.delays.getLast?.getD (fromSecs 20))
  (delay, { b with idx := b.idx + 1 })

end Backoff

/-! ## The loop -/

/-- What became of one iteration. -/
inductive Outcome where
  | connectFailed (report : String)
  | subscribeFailed
  /-- The subscription yielded some logs and ended. -/
  | streamEnded (logs : Nat)
  /-- The executor dropped its end of the channel. -/
  | executorGone (logs : Nat)
  deriving DecidableEq, Repr

/-- `slept` are the delays slept, oldest first; `result` is what the loop
returned. -/
structure ListenLoop where
  attempt : Nat
  backoff : Backoff
  slept : List Duration
  result : Option (Except String Unit)

namespace ListenLoop

def start (config : ReconnectionConfig) : ListenLoop :=
  { attempt := 0, backoff := .new config.backoffSchedule, slept := [], result := none }

/-- `sleep(backoff.next_delay())`. -/
def sleepNext (s : ListenLoop) : ListenLoop :=
  let (delay, backoff) := s.backoff.nextDelay
  { s with backoff, slept := s.slept ++ [delay] }

/-- One iteration of a loop that has not returned. -/
def iterate (config : ReconnectionConfig) (s : ListenLoop) (o : Outcome) : ListenLoop :=
  match s.result with
  | some _ => s
  | none =>
      let s := { s with attempt := s.attempt + 1 }
      match o with
      | .connectFailed report =>
          if config.maxRetries > 0 ∧ s.attempt > config.maxRetries then
            { s with result := some (.error report) }
          else s.sleepNext
      -- the backoff is reset as soon as the connection stands
      | .subscribeFailed => { s with backoff := s.backoff.reset }.sleepNext
      | .streamEnded _ => { s with backoff := s.backoff.reset }.sleepNext
      | .executorGone _ => { s with backoff := s.backoff.reset, result := some (.ok ()) }

end ListenLoop

/-! ## Reading a history -/

namespace Outcome

/-- The iteration made no connection. -/
def connectFails : Outcome → Bool
  | connectFailed _ => true
  | _ => false

/-- The iteration yielded a log subscription. -/
def subscribes : Outcome → Bool
  | streamEnded _ => true
  | executorGone _ => true
  | _ => false

end Outcome

/-- The attempts that failed since the last successful connection. -/
def failures (os : List Outcome) : Nat := (os.rtakeWhile Outcome.connectFails).length

/-- The iterations without a subscription since the last one with it. -/
def unsubscribed (os : List Outcome) : Nat :=
  (os.rtakeWhile fun o => !o.subscribes).length

/-- Some iteration made a connection. -/
def Connected (os : List Outcome) : Prop := ∃ o ∈ os, o.connectFails = false

instance (os : List Outcome) : Decidable (Connected os) :=
  inferInstanceAs (Decidable (∃ o ∈ os, o.connectFails = false))

variable {config : ReconnectionConfig} {os : List Outcome} {o : Outcome}

theorem failures_snoc_of_fails (h : o.connectFails = true) :
    failures (os ++ [o]) = failures os + 1 := by
  rw [failures, List.rtakeWhile_concat_pos _ _ _ h, List.length_append]
  rfl

theorem failures_snoc_of_connects (h : o.connectFails = false) : failures (os ++ [o]) = 0 := by
  rw [failures, List.rtakeWhile_concat_neg _ _ _ (by simp [h])]
  rfl

theorem failures_le_length (os : List Outcome) : failures os ≤ os.length :=
  (List.rtakeWhile_suffix _ os).length_le

theorem connected_snoc : Connected (os ++ [o]) ↔ Connected os ∨ o.connectFails = false := by
  simp [Connected, or_and_right, exists_or]

/-- The `k`-th entry of a schedule, its last one from there on; 20 seconds
without any. -/
def delayAt (schedule : List Duration) (k : Nat) : Duration :=
  schedule[min k schedule.length - 1]?.getD (fromSecs 20)

theorem nextDelay_fst (b : Backoff) : b.nextDelay.1 = delayAt b.delays (b.idx + 1) := by
  obtain ⟨delays, idx⟩ := b
  simp only [Backoff.nextDelay, delayAt]
  by_cases h : idx < delays.length
  · have hmin : min (idx + 1) delays.length - 1 = idx := by omega
    rw [hmin, List.getElem?_eq_getElem h]
    simp only [Option.getD_some]
  · have hmin : min (idx + 1) delays.length - 1 = delays.length - 1 := by omega
    rw [hmin, List.getElem?_eq_none (Nat.not_lt.mp h), Option.getD_none,
      List.getLast?_eq_getElem?]

/-- The entry the backoff comes to: counted from the last connection, or from
the start. -/
def position (os : List Outcome) : Nat := if Connected os then failures os + 1 else failures os

/-- The loop after the iterations. -/
def loop (config : ReconnectionConfig) (os : List Outcome) : ListenLoop :=
  run (ListenLoop.iterate config) (.start config) os

/-- The loop goes on. -/
structure Running (config : ReconnectionConfig) (os : List Outcome) (s : ListenLoop) : Prop where
  attempt : s.attempt = os.length
  backoff : s.backoff = ⟨config.backoffSchedule, position os⟩
  result : s.result = none

/-- The loop gives up with the outcome `o`. -/
def GivesUpOn (config : ReconnectionConfig) (os : List Outcome) (o : Outcome) : Prop :=
  o.connectFails = true ∧ 0 < config.maxRetries ∧ config.maxRetries ≤ os.length

theorem position_snoc_of_fails (h : o.connectFails = true) :
    position (os ++ [o]) = position os + 1 := by
  have hsame : Connected (os ++ [o]) ↔ Connected os := by
    rw [connected_snoc, h]
    simp
  simp only [position, hsame, failures_snoc_of_fails h]
  split <;> rfl

theorem position_snoc_of_connects (h : o.connectFails = false) : position (os ++ [o]) = 1 := by
  rw [position, if_pos (connected_snoc.mpr (.inr h)), failures_snoc_of_connects h]

/-- Sleeping the next delay ends an iteration. -/
theorem running_sleepNext {s : ListenLoop} {k : Nat} (hattempt : s.attempt = os.length + 1)
    (hbackoff : s.backoff = ⟨config.backoffSchedule, k⟩) (hresult : s.result = none)
    (hposition : position (os ++ [o]) = k + 1) :
    Running config (os ++ [o]) s.sleepNext
      ∧ s.sleepNext.slept
        = s.slept ++ [delayAt config.backoffSchedule (position (os ++ [o]))] := by
  refine ⟨⟨?_, ?_, hresult⟩, ?_⟩
  · rw [List.length_append, List.length_singleton]
    exact hattempt
  · rw [hposition]
    show s.backoff.nextDelay.2 = _
    rw [hbackoff]
    rfl
  · show s.slept ++ [s.backoff.nextDelay.1] = _
    rw [nextDelay_fst, hbackoff, hposition]

/-- A loop whose iteration connects sleeps the first entry next. -/
theorem iterate_of_connects {s : ListenLoop} (hresult : s.result = none)
    (hopen : ∀ logs, o ≠ .executorGone logs) (hconnects : o.connectFails = false) :
    s.iterate config o
      = ListenLoop.sleepNext { s with attempt := s.attempt + 1, backoff := s.backoff.reset } := by
  cases o with
  | connectFailed report => cases hconnects
  | subscribeFailed => simp only [ListenLoop.iterate, hresult]
  | streamEnded logs => simp only [ListenLoop.iterate, hresult]
  | executorGone logs => exact absurd rfl (hopen logs)

/-- One without a connection gives up, or sleeps the entry after the last. -/
theorem iterate_of_fails (config : ReconnectionConfig) {s : ListenLoop} (hresult : s.result = none)
    (hfails : o.connectFails = true) :
    ∃ report, s.iterate config o
      = if config.maxRetries > 0 ∧ s.attempt + 1 > config.maxRetries then
          { s with attempt := s.attempt + 1, result := some (.error report) }
        else ListenLoop.sleepNext { s with attempt := s.attempt + 1 } := by
  cases o with
  | connectFailed report => exact ⟨report, by simp only [ListenLoop.iterate, hresult]⟩
  | _ => cases hfails

theorem Running.giveUp {s : ListenLoop} (h : Running config os s) (hup : GivesUpOn config os o) :
    ∃ report, (s.iterate config o).result = some (.error report) := by
  obtain ⟨hfails, hpos, hle⟩ := hup
  obtain ⟨report, heq⟩ := iterate_of_fails config h.result hfails
  refine ⟨report, ?_⟩
  rw [heq, if_pos ⟨hpos, by rw [h.attempt]; omega⟩]

/-- **One iteration**: a loop that does not give up sleeps the entry it has
come to, and goes on. -/
theorem Running.iterate {s : ListenLoop} (h : Running config os s)
    (hopen : ∀ logs, o ≠ .executorGone logs) (hup : ¬ GivesUpOn config os o) :
    Running config (os ++ [o]) (s.iterate config o)
      ∧ (s.iterate config o).slept
        = s.slept ++ [delayAt config.backoffSchedule (position (os ++ [o]))] := by
  have hattempt : s.attempt + 1 = os.length + 1 := congrArg (· + 1) h.attempt
  cases hfails : o.connectFails with
  | true =>
      obtain ⟨report, heq⟩ := iterate_of_fails config h.result hfails
      have hstays : ¬ (config.maxRetries > 0 ∧ s.attempt + 1 > config.maxRetries) := by
        rintro ⟨hpos, hlt⟩
        exact hup ⟨hfails, hpos, by omega⟩
      rw [heq, if_neg hstays]
      exact running_sleepNext hattempt h.backoff h.result (position_snoc_of_fails hfails)
  | false =>
      rw [iterate_of_connects h.result hopen hfails]
      refine running_sleepNext hattempt ?_ h.result (position_snoc_of_connects hfails)
      show s.backoff.reset = _
      rw [h.backoff]
      rfl

theorem running_start (config : ReconnectionConfig) : Running config [] (.start config) :=
  ⟨rfl, rfl, rfl⟩

/-- The executor's channel stays open. -/
def Open (os : List Outcome) : Prop := ∀ o ∈ os, ∀ logs, o ≠ .executorGone logs

/-- A failed attempt after the first `max_retries` iterations. -/
def LateFailure (config : ReconnectionConfig) (os : List Outcome) : Prop :=
  0 < config.maxRetries ∧ ∃ o ∈ os.drop config.maxRetries, o.connectFails = true

theorem lateFailure_snoc :
    LateFailure config (os ++ [o]) ↔ LateFailure config os ∨ GivesUpOn config os o := by
  by_cases hle : config.maxRetries ≤ os.length
  · rw [LateFailure, List.drop_append_of_le_length hle]
    simp only [LateFailure, GivesUpOn, List.mem_append, List.mem_singleton, or_and_right,
      exists_or, exists_eq_left]
    constructor
    · rintro ⟨hpos, hold | hnew⟩
      · exact .inl ⟨hpos, hold⟩
      · exact .inr ⟨hnew, hpos, hle⟩
    · rintro (⟨hpos, hold⟩ | ⟨hnew, hpos, -⟩)
      · exact ⟨hpos, .inl hold⟩
      · exact ⟨hpos, .inr hnew⟩
  · have hshort : os.length + 1 ≤ config.maxRetries := Nat.not_le.mp hle
    have hnew : (os ++ [o]).drop config.maxRetries = [] :=
      List.drop_eq_nil_of_le (by rw [List.length_append]; exact hshort)
    have hold : os.drop config.maxRetries = [] := List.drop_eq_nil_of_le (Nat.le_of_not_le hle)
    simp [LateFailure, GivesUpOn, hnew, hold, hle]

/-- **When the loop gives up**: at the first iteration after `max_retries` of
them that makes no connection, whatever the earlier ones did. -/
theorem loop_cases (config : ReconnectionConfig) (hopen : Open os) :
    (¬ LateFailure config os ∧ Running config os (loop config os))
      ∨ (LateFailure config os ∧ ∃ report, (loop config os).result = some (.error report)) := by
  induction os using List.reverseRecOn with
  | nil => exact .inl ⟨by simp [LateFailure], running_start config⟩
  | append_singleton os o ih =>
      have ho := hopen o (List.mem_append_right _ (List.mem_singleton_self o))
      have hrun : loop config (os ++ [o]) = (loop config os).iterate config o :=
        run_snoc _ _ _ _
      rw [lateFailure_snoc, hrun]
      cases ih fun o ho => hopen o (List.mem_append_left _ ho) with
      | inl hprev =>
          obtain ⟨hnone, hrunning⟩ := hprev
          by_cases hup : GivesUpOn config os o
          · exact .inr ⟨.inr hup, hrunning.giveUp hup⟩
          · exact .inl ⟨fun h => h.elim hnone hup, (hrunning.iterate ho hup).1⟩
      | inr hprev =>
          obtain ⟨hlate, report, hreturned⟩ := hprev
          refine .inr ⟨.inl hlate, report, ?_⟩
          simp only [ListenLoop.iterate, hreturned]

theorem failed_iff (hopen : Open os) :
    (∃ report, (loop config os).result = some (.error report)) ↔ LateFailure config os := by
  cases loop_cases config hopen with
  | inl h =>
      refine iff_of_false ?_ h.1
      rw [h.2.result]
      nofun
  | inr h => exact iff_of_true h.2 h.1

/-! ## A budget of retries -/

/-- The rule of a budget: an error is returned once more than `max_retries`
attempts in a row have failed. -/
def GivesUpOnStreaks (config : ReconnectionConfig) (os : List Outcome) : Prop :=
  ∀ p, p <+: os → ((∃ report, (loop config p).result = some (.error report))
    ↔ 0 < config.maxRetries ∧ ∃ q, q <+: p ∧ config.maxRetries < failures q)

/-- So many failures in a row are a late failure. -/
theorem lateFailure_of_failures (hpos : 0 < config.maxRetries)
    (h : config.maxRetries < failures os) : LateFailure config os := by
  cases os using List.reverseRecOn with
  | nil => cases h
  | append_singleton os o =>
      cases hfails : o.connectFails with
      | true =>
          have hle := failures_le_length (os ++ [o])
          rw [List.length_append, List.length_singleton] at hle
          exact lateFailure_snoc.mpr (.inr ⟨hfails, hpos, by omega⟩)
      | false =>
          rw [failures_snoc_of_connects hfails] at h
          cases h

theorem LateFailure.extend {p : List Outcome} (h : LateFailure config p) (hp : p <+: os) :
    LateFailure config os := by
  obtain ⟨hpos, o, ho, hfails⟩ := h
  obtain ⟨rest, rfl⟩ := hp
  refine ⟨hpos, o, ?_, hfails⟩
  rw [List.drop_append]
  exact List.mem_append_left _ ho

theorem failures_of_all (h : ∀ o ∈ os, o.connectFails = true) : failures os = os.length := by
  rw [failures, List.rtakeWhile_eq_self_iff.mpr h]

/-- The first failed attempt after the first `max_retries` iterations. -/
theorem exists_first {l : List Outcome} (h : ∃ o ∈ l, o.connectFails = true) :
    ∃ before o after, l = before ++ o :: after ∧ o.connectFails = true
      ∧ ∀ x ∈ before, x.connectFails = false := by
  induction l with
  | nil => simp at h
  | cons x l ih =>
      cases hx : x.connectFails with
      | true => exact ⟨[], x, l, rfl, hx, by simp⟩
      | false =>
          have hrest : ∃ o ∈ l, o.connectFails = true := by
            obtain ⟨o, ho, hfails⟩ := h
            cases List.mem_cons.mp ho with
            | inl heq =>
                rw [heq, hx] at hfails
                cases hfails
            | inr hmem => exact ⟨o, hmem, hfails⟩
          obtain ⟨before, o, after, rfl, hfails, hbefore⟩ := ih hrest
          exact ⟨x :: before, o, after, rfl, hfails, by simpa [hx] using hbefore⟩

/-- If the rule of a budget holds, the first failure that makes the loop give
up ends a streak from the very first attempt on. -/
theorem all_fail_of_givesUpOnStreaks {before after : List Outcome} (hopen : Open os)
    (h : GivesUpOnStreaks config os) (hpos : 0 < config.maxRetries)
    (hlen : config.maxRetries ≤ os.length)
    (hsplit : os.drop config.maxRetries = before ++ o :: after) (hfails : o.connectFails = true)
    (hbefore : ∀ x ∈ before, x.connectFails = false) :
    ∀ x ∈ os.take (config.maxRetries + 1), x.connectFails = true := by
  have hos : os = os.take config.maxRetries ++ before ++ [o] ++ after := by
    rw [List.append_assoc, List.append_assoc, List.singleton_append, ← hsplit,
      List.take_append_drop]
  have hpre : os.take config.maxRetries ++ before ++ [o] <+: os := ⟨after, hos.symm⟩
  have htake : (os.take config.maxRetries).length = config.maxRetries := by
    rw [List.length_take]
    omega
  have hbefore_drop : (os.take config.maxRetries ++ before).drop config.maxRetries = before := by
    rw [List.drop_append_of_le_length (by omega), List.drop_of_length_le (by omega),
      List.nil_append]
  have hlate : LateFailure config (os.take config.maxRetries ++ before ++ [o]) := by
    refine lateFailure_snoc.mpr (.inr ⟨hfails, hpos, ?_⟩)
    rw [List.length_append]
    omega
  have hreturned := (failed_iff fun x hx => hopen x (hpre.subset hx)).mpr hlate
  obtain ⟨-, q, hq, hstreak⟩ := (h _ hpre).mp hreturned
  cases List.prefix_concat_iff.mp hq with
  | inr hshort =>
      -- a streak before `o` ends with a failure in `before`
      obtain ⟨-, x, hx, hxfails⟩ := (lateFailure_of_failures hpos hstreak).extend hshort
      rw [hbefore_drop] at hx
      rw [hbefore x hx] at hxfails
      cases hxfails
  | inl hwhole =>
      subst hwhole
      cases before using List.reverseRecOn with
      | append_singleton before x =>
          -- the attempt before `o` made a connection
          have hx : x.connectFails = false := hbefore x (by simp)
          rw [failures_snoc_of_fails hfails, ← List.append_assoc,
            failures_snoc_of_connects hx] at hstreak
          omega
      | nil =>
          rw [List.append_nil] at hos hstreak
          have hlength : (os.take config.maxRetries ++ [o]).length = config.maxRetries + 1 := by
            rw [List.length_append, htake]
            rfl
          have htake_succ : os.take (config.maxRetries + 1)
              = os.take config.maxRetries ++ [o] := by
            conv => lhs; rw [hos]
            exact List.take_left' hlength
          -- the streak is as long as the whole prefix
          have hwhole := (List.rtakeWhile_suffix Outcome.connectFails
            (os.take config.maxRetries ++ [o])).eq_of_length_le (by
              rw [hlength]
              exact hstreak)
          rw [htake_succ]
          exact fun x hx => List.rtakeWhile_eq_self_iff.mp hwhole x hx

/-- **The give-up rule holds exactly** when the budget is infinite, when the
first `max_retries + 1` attempts all fail, or when no attempt after the first
`max_retries` fails. -/
theorem givesUp_iff (hopen : Open os) :
    GivesUpOnStreaks config os
      ↔ config.maxRetries = 0
        ∨ (∀ o ∈ os.take (config.maxRetries + 1), o.connectFails = true)
        ∨ ∀ o ∈ os.drop config.maxRetries, o.connectFails = false := by
  constructor
  · intro h
    by_cases hzero : config.maxRetries = 0
    · exact .inl hzero
    by_cases hlate : ∃ o ∈ os.drop config.maxRetries, o.connectFails = true
    · obtain ⟨before, o, after, hsplit, hfails, hbefore⟩ := exists_first hlate
      have hlen : config.maxRetries ≤ os.length := by
        by_cases hle : config.maxRetries ≤ os.length
        · exact hle
        · rw [List.drop_eq_nil_of_le (Nat.le_of_not_le hle)] at hsplit
          simp at hsplit
      exact .inr (.inl (all_fail_of_givesUpOnStreaks hopen h (Nat.pos_of_ne_zero hzero) hlen hsplit
        hfails hbefore))
    · refine .inr (.inr fun o ho => ?_)
      cases hfails : o.connectFails with
      | false => rfl
      | true => exact absurd ⟨o, ho, hfails⟩ hlate
  · intro h p hp
    rw [failed_iff fun o ho => hopen o (hp.subset ho)]
    -- a streak above the budget always makes the loop give up
    have hstreak : (0 < config.maxRetries ∧ ∃ q, q <+: p ∧ config.maxRetries < failures q) →
        LateFailure config p := by
      intro ⟨hpos, q, hq, hlt⟩
      exact (lateFailure_of_failures hpos hlt).extend hq
    refine ⟨fun hlate => ?_, hstreak⟩
    obtain ⟨hpos, o, ho, hfails⟩ := hlate
    rcases h with hzero | hall | hnone
    · omega
    · -- the first `max_retries + 1` attempts are such a streak
      have hlong : config.maxRetries < p.length := by
        have hne := List.length_pos_of_mem ho
        rw [List.length_drop] at hne
        omega
      refine ⟨hpos, p.take (config.maxRetries + 1), List.take_prefix _ _, ?_⟩
      have hsame : p.take (config.maxRetries + 1) = os.take (config.maxRetries + 1) := by
        obtain ⟨rest, rfl⟩ := hp
        rw [List.take_append_of_le_length hlong]
      rw [failures_of_all (hsame ▸ hall), List.length_take]
      omega
    · have hnot : o.connectFails = false := by
        obtain ⟨rest, rfl⟩ := hp
        refine hnone o ?_
        rw [List.drop_append]
        exact List.mem_append_left _ ho
      rw [hnot] at hfails
      cases hfails

/-- A budget of one retry. -/
def sampleReconnection : ReconnectionConfig := ⟨1, [fromSecs 5, fromSecs 10]⟩

theorem givesUp_iff_sample :
    GivesUpOnStreaks sampleReconnection [.connectFailed "refused", .connectFailed "refused"] :=
  (givesUp_iff (by simp [Open])).mpr (.inr (.inl (by decide)))

/-- After a connection that worked, the first failed attempt is one too many
for a budget of one retry. -/
theorem earlier_success_uses_budget :
    (loop sampleReconnection [.streamEnded 3, .connectFailed "refused"]).result
        = some (.error "refused")
      ∧ failures [.streamEnded 3, .connectFailed "refused"] = 1
      ∧ ¬ GivesUpOnStreaks sampleReconnection [.streamEnded 3, .connectFailed "refused"] := by
  have hreturned : (loop sampleReconnection [.streamEnded 3, .connectFailed "refused"]).result
      = some (.error "refused") := rfl
  refine ⟨hreturned, rfl, fun h => ?_⟩
  obtain ⟨-, q, hq, hstreak⟩ := (h _ (List.prefix_refl _)).mp ⟨"refused", hreturned⟩
  have hnone : ∀ q ∈ List.inits [Outcome.streamEnded 3, .connectFailed "refused"],
      failures q ≤ 1 := by decide
  exact absurd hstreak (Nat.not_lt.mpr (hnone q ((List.mem_inits _ _).mpr hq)))

/-! ## A schedule of delays -/

/-- The loop waits after an iteration without a subscription, the last of the
history `h`. -/
structure WaitsAfter (config : ReconnectionConfig) (os h : List Outcome) : Prop where
  within : h <+: os
  last : ∃ o, h.getLast? = some o ∧ o.subscribes = false
  stays : ¬ LateFailure config h

/-- A schedule by subscriptions: after the `k`-th iteration in a row without
one, its `k`-th entry. -/
def AsScheduled (config : ReconnectionConfig) (os : List Outcome) : Prop :=
  ∀ h, WaitsAfter config os h →
    (loop config h).slept.getLast? = some (delayAt config.backoffSchedule (unsubscribed h))

/-- The loop sleeps the entry counted from the last connection. -/
theorem getLast?_slept {h : List Outcome} (hopen : Open os) (within : h <+: os)
    (hlast : h.getLast? = some o) (hstays : ¬ LateFailure config h) :
    (loop config h).slept.getLast? = some (delayAt config.backoffSchedule (position h)) := by
  obtain ⟨before, rfl⟩ := List.getLast?_eq_some_iff.mp hlast
  have hopen : Open (before ++ [o]) := fun x hx => hopen x (within.subset hx)
  have hprev : Open before := fun x hx => hopen x (List.mem_append_left _ hx)
  have hnot := fun h => hstays (lateFailure_snoc.mpr h)
  have hrunning : Running config before (loop config before) := by
    cases loop_cases config hprev with
    | inl h => exact h.2
    | inr h => exact absurd (.inl h.1) hnot
  have hslept := (hrunning.iterate (hopen o (by simp)) (fun hup => hnot (.inr hup))).2
  rw [loop, run_snoc]
  rw [loop] at hslept
  rw [hslept, List.getLast?_append_of_ne_nil _ (List.cons_ne_nil _ _)]
  rfl

/-- Without any connection so far both counts are the number of iterations. -/
theorem position_of_not_connected {h : List Outcome} (hnone : ¬ Connected h) :
    position h = unsubscribed h := by
  have hfails : ∀ o ∈ h, o.connectFails = true := by
    intro o ho
    cases hc : o.connectFails with
    | true => rfl
    | false => exact absurd ⟨o, ho, hc⟩ hnone
  have hdark : ∀ o ∈ h, (!o.subscribes) = true := by
    intro o ho
    have hf := hfails o ho
    cases o with
    | connectFailed report => rfl
    | _ => cases hf
  rw [position, if_neg hnone, failures_of_all hfails, unsubscribed,
    List.rtakeWhile_eq_self_iff.mpr hdark]

theorem WaitsAfter.getLast?_slept {h : List Outcome} (hw : WaitsAfter config os h)
    (hopen : Open os) :
    (loop config h).slept.getLast? = some (delayAt config.backoffSchedule (position h)) := by
  obtain ⟨o, hlast, -⟩ := hw.last
  exact Service.getLast?_slept hopen hw.within hlast hw.stays

theorem position_of_connected {h : List Outcome} (hc : Connected h) :
    position h = failures h + 1 := if_pos hc

/-- An increasing schedule tells its entries apart. -/
theorem delayAt_range {n k : Nat} (hpos : 0 < k) (hle : k ≤ n) :
    delayAt (List.range n) k = k - 1 := by
  have hmin : min k (List.range n).length - 1 = k - 1 := by
    rw [List.length_range]
    omega
  rw [delayAt, hmin, List.getElem?_range (by omega)]
  rfl

theorem unsubscribed_pos {h : List Outcome} (hw : WaitsAfter config os h) : 0 < unsubscribed h := by
  obtain ⟨-, ⟨o, hlast, hdark⟩, -⟩ := hw
  obtain ⟨before, rfl⟩ := List.getLast?_eq_some_iff.mp hlast
  rw [unsubscribed, List.rtakeWhile_concat_pos _ _ _ (by simp [hdark]), List.length_append]
  exact Nat.succ_pos _

/-- **The schedule is kept exactly** where the entry counted from the last
connection is the entry counted from the last subscription: on one schedule
if the two entries are equal, on every schedule if the two counts are. -/
theorem asScheduled_iff (maxRetries : Nat) (hopen : Open os) :
    (∀ schedule, AsScheduled ⟨maxRetries, schedule⟩ os
        ↔ ∀ h, WaitsAfter ⟨maxRetries, schedule⟩ os h → Connected h →
          delayAt schedule (failures h + 1) = delayAt schedule (unsubscribed h))
      ∧ ((∀ schedule, AsScheduled ⟨maxRetries, schedule⟩ os)
        ↔ ∀ h, WaitsAfter ⟨maxRetries, []⟩ os h → Connected h →
          failures h + 1 = unsubscribed h) := by
  have hone : ∀ schedule, AsScheduled ⟨maxRetries, schedule⟩ os
      ↔ ∀ h, WaitsAfter ⟨maxRetries, schedule⟩ os h → Connected h →
        delayAt schedule (failures h + 1) = delayAt schedule (unsubscribed h) := by
    intro schedule
    constructor
    · intro hkept h hw hc
      have hslept := hw.getLast?_slept hopen
      rw [hkept h hw, position_of_connected hc] at hslept
      exact (Option.some.inj hslept).symm
    · intro heq h hw
      rw [hw.getLast?_slept hopen]
      by_cases hc : Connected h
      · rw [position_of_connected hc]
        exact congrArg some (heq h hw hc)
      · rw [position_of_not_connected hc]
  refine ⟨hone, fun hall h hw hc => ?_, fun heq schedule => (hone schedule).mpr ?_⟩
  · -- the two counts are told apart by a schedule that is long enough
    have hlen := hw.within.length_le
    have hfailures := failures_le_length h
    have hdark : unsubscribed h ≤ h.length := (List.rtakeWhile_suffix _ h).length_le
    have hpos := unsubscribed_pos hw
    have heq := (hone (List.range (os.length + 1))).mp (hall _) h ⟨hw.within, hw.last, hw.stays⟩ hc
    rw [delayAt_range (Nat.succ_pos _) (by omega), delayAt_range hpos (by omega)] at heq
    have heq : failures h + 1 - 1 = unsubscribed h - 1 := heq
    omega
  · intro h hw hc
    have hw' : WaitsAfter ⟨maxRetries, []⟩ os h := ⟨hw.within, hw.last, hw.stays⟩
    rw [heq h hw' hc]

/-! ### The reconnect attempts -/

/-- The iterations since the last subscription all failed to connect. -/
def OnlyConnectsFailed (h : List Outcome) : Prop :=
  ∀ o ∈ h.rtakeWhile fun o => !o.subscribes, o.connectFails = true

theorem failures_of_onlyConnectsFailed {h : List Outcome} (hfailed : OnlyConnectsFailed h) :
    failures h = unsubscribed h := by
  induction h using List.reverseRecOn with
  | nil => rfl
  | append_singleton h o ih =>
      rw [OnlyConnectsFailed] at hfailed
      cases hsub : o.subscribes with
      | true =>
          have hconnects : o.connectFails = false := by
            cases o with
            | connectFailed report => cases hsub
            | _ => rfl
          rw [failures_snoc_of_connects hconnects, unsubscribed,
            List.rtakeWhile_concat_neg _ _ _ (by simp [hsub])]
          rfl
      | false =>
          rw [List.rtakeWhile_concat_pos _ _ _ (by simp [hsub])] at hfailed
          have hrest : OnlyConnectsFailed h := fun x hx => hfailed x (List.mem_append_left _ hx)
          rw [failures_snoc_of_fails (hfailed o (by simp)), ih hrest, unsubscribed, unsubscribed,
            List.rtakeWhile_concat_pos _ _ _ (by simp [hsub]), List.length_append]
          rfl

/-- **The schedule of the reconnect attempts**: a stream that ended is followed
by the first entry, and the `k`-th failed attempt from there on by the entry
after the `k`-th; before any connection the `k`-th failed attempt is followed
by the `k`-th entry. -/
theorem reconnect_delays (config : ReconnectionConfig) (hopen : Open os) :
    (∀ h, WaitsAfter config os h → OnlyConnectsFailed h →
        (loop config h).slept.getLast? = some (delayAt config.backoffSchedule
          (if Connected h then unsubscribed h + 1 else unsubscribed h)))
      ∧ ∀ h logs, h ++ [.streamEnded logs] <+: os → ¬ LateFailure config (h ++ [.streamEnded logs]) →
        (loop config (h ++ [.streamEnded logs])).slept.getLast?
          = some (delayAt config.backoffSchedule 1) := by
  constructor
  · intro h hw hfailed
    rw [hw.getLast?_slept hopen, position, failures_of_onlyConnectsFailed hfailed]
  · intro h logs hwithin hstays
    have hslept := getLast?_slept hopen hwithin (List.getLast?_concat ..) hstays
    rw [hslept, position_snoc_of_connects rfl]

/-- Two delays, and no end of retries. -/
def sampleSchedule : ReconnectionConfig := ⟨0, [fromSecs 5, fromSecs 10]⟩

/-- The second delay follows the first failed attempt after a stream ended. -/
theorem reconnect_delays_sample :
    (loop sampleSchedule [.streamEnded 3, .connectFailed "refused"]).slept.getLast?
      = some (fromSecs 10) :=
  (reconnect_delays sampleSchedule (by simp [Open])).1 [.streamEnded 3, .connectFailed "refused"]
    ⟨List.prefix_refl _, ⟨.connectFailed "refused", rfl, rfl⟩, by simp [LateFailure, sampleSchedule]⟩
    (by simp only [OnlyConnectsFailed]; decide)

/-- A node that takes connections and refuses subscriptions is asked again
after the first delay, over and over; and the first failure after a stream
ended waits for the second. -/
theorem schedule_falls_back :
    (loop sampleSchedule [.subscribeFailed, .subscribeFailed]).slept = [fromSecs 5, fromSecs 5]
      ∧ unsubscribed [.subscribeFailed, .subscribeFailed] = 2
      ∧ delayAt sampleSchedule.backoffSchedule 2 = fromSecs 10
      ∧ (loop sampleSchedule [.streamEnded 3, .connectFailed "refused"]).slept
        = [fromSecs 5, fromSecs 10]
      ∧ unsubscribed [.streamEnded 3, .connectFailed "refused"] = 1
      ∧ delayAt sampleSchedule.backoffSchedule 1 = fromSecs 5
      ∧ ¬ AsScheduled sampleSchedule [.subscribeFailed, .subscribeFailed] := by
  refine ⟨rfl, rfl, rfl, rfl, rfl, rfl, fun h => ?_⟩
  have hslept := h [.subscribeFailed, .subscribeFailed]
    ⟨List.prefix_refl _, ⟨.subscribeFailed, rfl, rfl⟩, by simp [LateFailure, sampleSchedule]⟩
  exact absurd hslept (by decide)

end WorldIDBridge.Service
