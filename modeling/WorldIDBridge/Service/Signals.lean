import WorldIDBridge.Service.PollDeadline
import WorldIDBridge.Service.Quiescence

/-!
# The process with the signals

`Process` leaves out the signals of the listener to the poller. They are one more
wait between two tasks: the listener sends one after each connection, and one for
each log before it looks at the log, and waits while their channel is full; the
poller receives them one at a time, and none while it is in a poll. What a signal
does to the deadline is in `TimedRelay`; here the poller may poll at any time, as
in `Process`, and connections and logs come in any order. With the signals the
module says that the process comes to rest.
-/

namespace WorldIDBridge.Service

open TransitionRun

/-- What the listener waits to send a signal for. -/
inductive Signalling where
  | idle
  /-- In `poll_tx.send(PollSignal::Expedite).await`, after a connection. -/
  | expediting
  /-- In `poll_tx.send(PollSignal::Reset).await`, with a log in hand; `none` is one
  that cannot be decoded. -/
  | resetting (log : Option TreeChanged)
  deriving DecidableEq, Repr

namespace Signalling

/-- The signal, if there is one to send. -/
def signal? : Signalling → Option PollSignal
  | idle => none
  | expediting => some .expedite
  | resetting _ => some .reset

/-- The event in hand. -/
def event? : Signalling → Option TreeChanged
  | idle => none
  | expediting => none
  | resetting log => log

/-- What is done once the signal is sent: an event goes on to the cache and the
executor. -/
def next (signalling : Signalling) : List Process.Action :=
  signalling.event?.toList.map fun event => .task (.event event)

end Signalling

/-- The process, the channel of the signals and what the listener waits for. -/
structure SignalledProcess where
  process : Process
  signals : Mpsc PollSignal channelCapacity
  signalling : Signalling

namespace SignalledProcess

def start (now count : Nat) : SignalledProcess := ⟨.start now count, .empty, .idle⟩

/-- The poller panicked, by itself or in its call, and its receiver is gone. -/
def pollerGone (process : Process) : Bool :=
  process.relay.poller = .exited || Process.panicked (process.submitters.calls .poller)

/-- The listener is ready for a connection or for the next log. -/
def Listens (s : SignalledProcess) : Prop :=
  s.process.exited = false ∧ s.process.relay.path.listener = .listening ∧ s.signalling = .idle

instance (s : SignalledProcess) : Decidable s.Listens := inferInstanceAs (Decidable (_ ∧ _))

/-- The poller is in `select!`. -/
def Selects (s : SignalledProcess) : Prop :=
  s.process.exited = false ∧ s.process.relay.poller = .waiting ∧ pollerGone s.process = false

instance (s : SignalledProcess) : Decidable s.Selects := inferInstanceAs (Decidable (_ ∧ _))

variable (feeType : Fee) (config : Config)

/-- The process takes steps; a poller that panics drops its end of the channel. -/
def advance (s : SignalledProcess) (bs : List Process.Action) : SignalledProcess :=
  let process := run (Process.step feeType config) s.process bs
  { s with
    process
    signals := if pollerGone process && !pollerGone s.process then s.signals.dropReceiver
      else s.signals }

/-- The listener polls `poll_tx.send(signal)`, whose error is ignored. -/
def sendSignal (s : SignalledProcess) (signalling : Signalling) (signal : PollSignal) :
    SignalledProcess :=
  match s.signals.send signal with
  | .sent signals => advance feeType config { s with signals, signalling := .idle } signalling.next
  | .full => { s with signalling }
  | .closed => advance feeType config { s with signalling := .idle } signalling.next

inductive Action where
  /-- `connect_ws_provider` succeeded. -/
  | connected
  /-- The stream yields a log. -/
  | log (log : Option TreeChanged)
  /-- A `poll_tx.send` that waits is polled again. -/
  | sendAgain
  /-- The poller receives a signal. -/
  | recv
  /-- A step of the process that is none of the above. -/
  | process (a : Process.Action)

/-- An event comes with a log only, and a listener that waits does not give up. -/
def allows (s : SignalledProcess) : Process.Action → Bool
  | .task (.event _) => false
  | .task .giveUp => s.signalling = .idle
  | _ => true

/-- One step; a step that is not its turn changes nothing. -/
def step (s : SignalledProcess) : Action → SignalledProcess
  | .connected => if s.Listens then s.sendSignal feeType config .expediting .expedite else s
  | .log log => if s.Listens then s.sendSignal feeType config (.resetting log) .reset else s
  | .sendAgain =>
      if s.process.exited then s
      else
        match s.signalling.signal? with
        | some signal => s.sendSignal feeType config s.signalling signal
        | none => s
  | .recv =>
      if s.Selects then
        match s.signals.recv? with
        | some (_, signals) => { s with signals }
        | none => s
      else s
  | .process a => if s.allows a then s.advance feeType config [a] else s

variable {feeType config} {s : SignalledProcess}

/-! ## What a step does -/

/-- The signals on their way: those in the channel, and the one that waits. -/
def signalLoad (s : SignalledProcess) : Nat :=
  s.signals.items.length + s.signalling.signal?.toList.length

/-- The steps the signals on their way take, at most: one that waits is sent, and
each is received. -/
def left (s : SignalledProcess) : Nat :=
  s.signals.items.length + 2 * s.signalling.signal?.toList.length

theorem process_advance (s : SignalledProcess) (bs : List Process.Action) :
    (s.advance feeType config bs).process = run (Process.step feeType config) s.process bs := rfl

theorem left_advance (feeType : Fee) (config : Config) (s : SignalledProcess)
    (bs : List Process.Action) :
    (s.advance feeType config bs).left ≤ s.left := by
  refine Nat.add_le_add_right ?_ _
  simp only [advance]
  split
  · exact Nat.zero_le _
  · exact Nat.le_refl _

/-- A process that does not move leaves its signals. -/
theorem advance_of_same {a : Process.Action} (h : s.process.step feeType config a = s.process) :
    s.advance feeType config [a] = s := by
  have hrun : run (Process.step feeType config) s.process [a] = s.process := h
  simp only [advance, hrun, Bool.and_not_self, Bool.false_eq_true, if_false]

/-- **One attempt to send a signal**: the listener waits, or it goes on, and one
more signal is to be received. -/
theorem sendSignal_cases (feeType : Fee) (config : Config) (s : SignalledProcess)
    (signalling : Signalling) (signal : PollSignal) :
    s.sendSignal feeType config signalling signal = { s with signalling }
        ∧ s.signals.items ≠ []
      ∨ (s.sendSignal feeType config signalling signal).process
          = run (Process.step feeType config) s.process signalling.next
        ∧ (s.sendSignal feeType config signalling signal).signalling = .idle
        ∧ (s.sendSignal feeType config signalling signal).left ≤ s.signals.items.length + 1 := by
  unfold sendSignal
  split
  · rename_i signals hsent
    refine .inr ⟨rfl, rfl, (left_advance _ _ _ _).trans (Nat.le_of_eq ?_)⟩
    simp only [left, Mpsc.items_of_sent hsent, List.length_append]
    rfl
  · rename_i hfull
    exact .inl ⟨rfl, Mpsc.items_ne_nil_of_full hfull (by decide)⟩
  · refine .inr ⟨rfl, rfl, (left_advance _ _ _ _).trans ?_⟩
    exact Nat.le_succ _

/-! ## The process inside -/

/-- The steps the tasks and their calls take by themselves: those of the process,
the send of a signal that waits and the receipt of one. -/
def goesOn : Action → Bool
  | .sendAgain => true
  | .recv => true
  | .process a => Process.goesOn a
  | _ => false

/-- The connections and the logs: each brings a signal. -/
def arrivals (as : List Action) : Nat :=
  as.countP fun
    | .connected => true
    | .log _ => true
    | _ => false

/-- The times the poller's deadline is over. -/
def polls (as : List Action) : Nat :=
  as.countP fun
    | .process (.task a) => Relay.isPoll a
    | _ => false

/-- The process has taken the steps `ps`. What the signals add to the steps of its own
is two for each connection and each log, and for those on their way. -/
structure Inside (feeType : Fee) (config : Config) (s₀ : SignalledProcess) (as : List Action)
    (ps : List Process.Action) (s : SignalledProcess) : Prop where
  process : s.process = run (Process.step feeType config) s₀.process ps
  polled : Process.polls ps ≤ polls as
  balance : changes (step feeType config) goesOn s₀ as + s.left
    ≤ changes (Process.step feeType config) Process.goesOn s₀.process ps + s₀.left
      + 2 * arrivals as

/-- What follows a signal is no step of the tasks' own, and no poll. -/
theorem polls_next (ps : List Process.Action) (signalling : Signalling) :
    Process.polls (ps ++ signalling.next) = Process.polls ps := by
  rw [Signalling.next]
  cases signalling.event? with
  | none => exact congrArg Process.polls (List.append_nil ps)
  | some event => exact Process.polls_snoc_task ps (.event event)

theorem changes_next (p : Process) (ps : List Process.Action) (signalling : Signalling) :
    changes (Process.step feeType config) Process.goesOn p (ps ++ signalling.next)
      = changes (Process.step feeType config) Process.goesOn p ps := by
  rw [Signalling.next]
  cases signalling.event? with
  | none => exact congrArg (changes _ Process.goesOn p) (List.append_nil ps)
  | some event => exact changes_snoc_of_not _ _ _ _ (.inl rfl)

section Step

variable {s₀ : SignalledProcess} {as : List Action} {ps : List Process.Action}

theorem arrivals_snoc (as : List Action) (a : Action) :
    arrivals (as ++ [a]) = arrivals as + arrivals [a] := List.countP_append

theorem polls_snoc (as : List Action) (a : Action) : polls (as ++ [a]) = polls as + polls [a] :=
  List.countP_append

/-- A step after which there is no more to do. -/
theorem Inside.snoc (h : Inside feeType config s₀ as ps s) (a : Action) {s' : SignalledProcess}
    (hprocess : s'.process = s.process)
    (hbalance : changes (step feeType config) goesOn s₀ (as ++ [a]) + s'.left
      ≤ changes (step feeType config) goesOn s₀ as + s.left + 2 * arrivals [a]) :
    Inside feeType config s₀ (as ++ [a]) ps s' where
  process := hprocess.trans h.process
  polled := by
    rw [polls_snoc]
    exact Nat.le_trans h.polled (Nat.le_add_right _ _)
  balance := by
    have hbefore := h.balance
    rw [arrivals_snoc]
    omega

/-- A step that changes nothing. -/
theorem Inside.stay (h : Inside feeType config s₀ as ps s)
    (hs : s = run (step feeType config) s₀ as) {a : Action} (hsame : s.step feeType config a = s) :
    Inside feeType config s₀ (as ++ [a]) ps (s.step feeType config a) := by
  subst hs
  refine h.snoc a (by rw [hsame]) ?_
  rw [hsame, changes_snoc_of_not _ _ _ _ (.inr hsame)]
  exact Nat.le_add_right _ _

/-- A signal is sent, or waits. -/
theorem Inside.send (h : Inside feeType config s₀ as ps s) (a : Action) (signalling : Signalling)
    (signal : PollSignal)
    (hwaits : s.sendSignal feeType config signalling signal = { s with signalling } →
      changes (step feeType config) goesOn s₀ (as ++ [a]) + left { s with signalling }
        ≤ changes (step feeType config) goesOn s₀ as + s.left + 2 * arrivals [a])
    (hsent : changes (step feeType config) goesOn s₀ (as ++ [a]) + (s.signals.items.length + 1)
      ≤ changes (step feeType config) goesOn s₀ as + s.left + 2 * arrivals [a]) :
    ∃ ps', Inside feeType config s₀ (as ++ [a]) ps'
      (s.sendSignal feeType config signalling signal) := by
  rcases sendSignal_cases feeType config s signalling signal with
    ⟨hfull, -⟩ | ⟨hprocess, -, hleft⟩
  · rw [hfull]
    exact ⟨ps, h.snoc a rfl (hwaits hfull)⟩
  · refine ⟨ps ++ signalling.next, ?_, ?_, ?_⟩
    · rw [hprocess, h.process, run_append]
    · rw [polls_next, polls_snoc]
      exact Nat.le_trans h.polled (Nat.le_add_right _ _)
    · have hbefore := h.balance
      rw [changes_next, arrivals_snoc]
      omega

/-- A connection or a log, which the listener was ready for. -/
theorem Inside.arrive (h : Inside feeType config s₀ as ps s) (hlistens : s.Listens) {a : Action}
    (hgoes : goesOn a = false) (harrives : arrivals [a] = 1) (signalling : Signalling)
    (signal : PollSignal) :
    ∃ ps', Inside feeType config s₀ (as ++ [a]) ps'
      (s.sendSignal feeType config signalling signal) := by
  have hmoves := changes_snoc_of_not (step feeType config) goesOn s₀ as (.inl hgoes)
  have hleft : s.left = s.signals.items.length := by
    rw [left, hlistens.2.2]
    rfl
  have hone : signalling.signal?.toList.length ≤ 1 := by
    cases signalling <;> simp [Signalling.signal?]
  refine h.send a signalling signal (fun _ => ?_) ?_
  · show _ + (s.signals.items.length + 2 * signalling.signal?.toList.length) ≤ _
    omega
  · omega

/-- A step of the process. -/
theorem Inside.advance (h : Inside feeType config s₀ as ps s)
    (hs : s = run (step feeType config) s₀ as) (a : Process.Action)
    (hallows : s.allows a = true) :
    Inside feeType config s₀ (as ++ [.process a]) (ps ++ [a])
      (s.step feeType config (.process a)) := by
  have hnext : s.step feeType config (.process a) = s.advance feeType config [a] :=
    if_pos hallows
  have hprocess : (s.step feeType config (.process a)).process
      = run (Process.step feeType config) s₀.process (ps ++ [a]) := by
    rw [hnext, process_advance, h.process, run_append]
  have hpolls : Process.polls [a] = polls [.process a] := by
    cases a <;> rfl
  refine ⟨hprocess, ?_, ?_⟩
  · have hbefore := h.polled
    have hsnoc : Process.polls (ps ++ [a]) = Process.polls ps + Process.polls [a] :=
      List.countP_append
    rw [hsnoc, polls_snoc, hpolls]
    exact Nat.add_le_add_right hbefore _
  · have hbefore := h.balance
    have hleft := left_advance feeType config s [a]
    have harrivals : arrivals [.process a] = 0 := rfl
    rw [hnext, arrivals_snoc, harrivals]
    cases hgoes : Process.goesOn a with
    | false =>
        have hsame := changes_snoc_of_not (step feeType config) goesOn s₀ as
          (.inl (show goesOn (.process a) = false from hgoes))
        have hsame' := changes_snoc_of_not (Process.step feeType config) Process.goesOn
          s₀.process ps (.inl hgoes)
        omega
    | true =>
        by_cases hmoved : s.process.step feeType config a = s.process
        · -- neither the process moves nor what is around it
          have hstill : (run (step feeType config) s₀ as).step feeType config (.process a)
              = run (step feeType config) s₀ as := by
            rw [← hs, hnext, advance_of_same hmoved]
          have hstill' : (run (Process.step feeType config) s₀.process ps).step feeType config a
              = run (Process.step feeType config) s₀.process ps := by
            rw [← h.process, hmoved]
          have hsame := changes_snoc_of_not (step feeType config) goesOn s₀ as (.inr hstill)
          have hsame' := changes_snoc_of_not (Process.step feeType config) Process.goesOn
            s₀.process ps (.inr hstill')
          omega
        · have hmove := changes_snoc_le (step feeType config) goesOn s₀ as (.process a)
          have hmove' := changes_snoc_of_ne (Process.step feeType config) Process.goesOn
            s₀.process ps hgoes (by rwa [← h.process])
          omega

end Step

/-! ## Runs -/

theorem inside_step {s₀ : SignalledProcess} {as : List Action} {ps : List Process.Action}
    (h : Inside feeType config s₀ as ps s) (hs : s = run (step feeType config) s₀ as) (a : Action) :
    ∃ ps', Inside feeType config s₀ (as ++ [a]) ps' (s.step feeType config a) := by
  by_cases hsame : s.step feeType config a = s
  · exact ⟨ps, h.stay hs hsame⟩
  have hmoves := changes_snoc_le (step feeType config) goesOn s₀ as a
  cases a with
  | connected =>
      rw [step] at hsame ⊢
      split at hsame
      · rename_i hlistens
        rw [if_pos hlistens]
        exact h.arrive hlistens rfl rfl _ _
      · exact absurd rfl hsame
  | log log =>
      rw [step] at hsame ⊢
      split at hsame
      · rename_i hlistens
        rw [if_pos hlistens]
        exact h.arrive hlistens rfl rfl _ _
      · exact absurd rfl hsame
  | sendAgain =>
      simp only [step] at hsame ⊢
      split at hsame
      · exact absurd rfl hsame
      rename_i hlive
      rw [if_neg hlive]
      cases hsignal : s.signalling.signal? with
      | none =>
          rw [hsignal] at hsame
          exact absurd rfl hsame
      | some signal =>
          rw [hsignal] at hsame
          have hleft : s.left = s.signals.items.length + 2 := by
            rw [left, hsignal]
            rfl
          refine h.send .sendAgain s.signalling signal (fun hfull => absurd hfull hsame) ?_
          omega
  | recv =>
      simp only [step] at hsame ⊢
      split at hsame
      swap
      · exact absurd rfl hsame
      rename_i hselects
      rw [if_pos hselects]
      cases hrecv : s.signals.recv? with
      | none =>
          rw [hrecv] at hsame
          exact absurd rfl hsame
      | some received =>
          obtain ⟨signal, signals⟩ := received
          refine ⟨ps, h.snoc .recv rfl ?_⟩
          simp only [left, Mpsc.items_of_recv? hrecv, List.length_cons]
          omega
  | process a =>
      rw [step] at hsame
      split at hsame
      · rename_i hallows
        exact ⟨_, h.advance hs a hallows⟩
      · exact absurd rfl hsame

/-- **The process inside**: the signals take away runs of the process and add none. -/
theorem inside_run (feeType : Fee) (config : Config) (s₀ : SignalledProcess) (as : List Action) :
    ∃ ps, Inside feeType config s₀ as ps (run (step feeType config) s₀ as) := by
  have h := run_history_invariant (step feeType config) (P := fun _ _ => True)
    (I := fun as s => s = run (step feeType config) s₀ as
      ∧ ∃ ps, Inside feeType config s₀ as ps s) (s := s₀)
    ⟨rfl, [], rfl, Nat.le_refl _, Nat.le_refl _⟩ ?_ (along_true _ _ as)
  · exact h.2
  intro as a hinside _
  obtain ⟨hs, ps, h⟩ := hinside
  exact ⟨(run_snoc ..).symm, inside_step h hs a⟩

/-! ## At rest -/

/-- No step of the tasks or of their calls changes anything. -/
def Still (feeType : Fee) (config : Config) (s : SignalledProcess) : Prop :=
  ∀ a, goesOn a = true → s.step feeType config a = s

/-- The process inside is still as well. -/
theorem Still.process (h : Still feeType config s) : Process.Still feeType config s.process := by
  intro a ha
  have hallows : s.allows a = true := by
    cases a with
    | task b => cases b <;> first | rfl | cases ha
    | _ => rfl
  have hstep := h (.process a) ha
  rw [step, if_pos hallows] at hstep
  exact congrArg SignalledProcess.process hstep

/-- Without a poll under way the poller waits for signals. -/
theorem selects_of_rest (hload : s.process.relay.load = 0) (hlive : s.process.exited = false)
    (hsafe : s.process.doomed = false) : s.Selects := by
  obtain ⟨-, hpoller, hcalls⟩ := Process.not_doomed_iff.mp hsafe
  have hwork : s.process.relay.poller.work = 0 := (Nat.add_eq_zero_iff.mp hload).2
  refine ⟨hlive, ?_, ?_⟩
  · cases hcase : s.process.relay.poller with
    | waiting => rfl
    | exited => exact absurd hcase hpoller
    | _ =>
        rw [hcase] at hwork
        cases hwork
  · rw [pollerGone, Bool.or_eq_false_iff, decide_eq_false_iff_not]
    refine ⟨hpoller, Bool.eq_false_iff.mpr fun hpanicked => ?_⟩
    exact hcalls ⟨.poller, Process.panicked_iff.mp hpanicked⟩

/-- A poller that waits has received every signal. -/
theorem Still.signals (h : Still feeType config s) (hselects : s.Selects) :
    s.signals.items = [] := by
  have hstep := h .recv rfl
  simp only [step, if_pos hselects] at hstep
  cases hrecv : s.signals.recv? with
  | none => exact Mpsc.recv?_eq_none hrecv
  | some received =>
      obtain ⟨signal, signals⟩ := received
      rw [hrecv] at hstep
      have hitems : signals.items.length = s.signals.items.length :=
        congrArg (fun s : SignalledProcess => s.signals.items.length) hstep
      rw [Mpsc.items_of_recv? hrecv, List.length_cons] at hitems
      omega

/-- With room in the channel no send waits. -/
theorem Still.signalling (h : Still feeType config s) (hlive : s.process.exited = false)
    (hroom : s.signals.items = []) : s.signalling = .idle := by
  have hstep := h .sendAgain rfl
  simp only [step, hlive, Bool.false_eq_true, if_false] at hstep
  cases hsignal : s.signalling.signal? with
  | none =>
      cases hsending : s.signalling with
      | idle => rfl
      | _ =>
          rw [hsending] at hsignal
          cases hsignal
  | some signal =>
      rw [hsignal] at hstep
      rcases sendSignal_cases feeType config s s.signalling signal with
        ⟨-, hfull⟩ | ⟨-, hidle, -⟩
      · exact absurd hroom hfull
      · rw [← hstep]
        exact hidle

/-- **The process comes to rest**: from every state it reaches, and with anything
that happens in between, the tasks and their calls take at most 26 steps for each
event on its way or received and for each poll, one for the executor's return, and two
for each signal on its way and for each connection and each log; and where they can
take none, no event and no signal is on its way, the listener waits to send neither and
no poll is under way, or a task panicked. -/
theorem comes_to_rest (feeType : Fee) (config : Config) (now count : Nat) (as bs : List Action) :
    let s := run (step feeType config) (start now count) as
    let s' := run (step feeType config) s bs
    changes (step feeType config) goesOn s bs
        ≤ 26 * (s.process.relay.load
            + (s'.process.relay.path.offered.length - s.process.relay.path.offered.length)
            + polls bs) + 1 + 2 * (s.signalLoad + arrivals bs)
      ∧ (Still feeType config s → s.process.doomed = true
        ∨ s.process.relay.load = 0 ∧ s.signalLoad = 0) := by
  intro s s'
  obtain ⟨ps, hinside⟩ : ∃ ps, Inside feeType config (start now count) as ps s :=
    inside_run feeType config _ as
  have hprocess : s.process
      = run (Process.step feeType config) (Process.start now count) ps := hinside.process
  constructor
  · obtain ⟨qs, hmoved⟩ : ∃ qs, Inside feeType config s bs qs s' := inside_run feeType config s bs
    have hmoves := Process.moves_le feeType config now count ps qs
    dsimp only at hmoves
    rw [← hprocess, ← hmoved.process] at hmoves
    have hbalance := hmoved.balance
    have hpolled := hmoved.polled
    have hleft : s.left ≤ 2 * s.signalLoad := by
      simp only [left, signalLoad]
      omega
    omega
  · intro hstill
    cases hdoomed : s.process.doomed with
    | true => exact .inl rfl
    | false =>
        have hsupervised : Process.Supervised config s.process := by
          rw [hprocess]
          exact Process.supervised_run feeType config now count ps
        have hclosed : s.process.relay.path.Closed := by
          rw [hprocess]
          exact Process.closed_path feeType config now count ps
        have hload := hstill.process.load_eq_zero hsupervised hclosed hdoomed
        have hlive := hsupervised.live hdoomed
        have hsignals := hstill.signals (selects_of_rest hload hlive hdoomed)
        refine .inr ⟨hload, ?_⟩
        rw [signalLoad, hsignals, hstill.signalling hlive hsignals]
        rfl

end SignalledProcess

end WorldIDBridge.Service
