import WorldIDBridge.Lib.Mpsc
import WorldIDBridge.Lib.TransitionRun
import WorldIDBridge.Service.Fee
import WorldIDBridge.Service.Requests

/-!
# The event path: listener, channel, executor

The listener hands `TreeChanged` events over to the executor through a
bounded channel; the executor propagates once for each event. The two tasks
are here at their await points, and every interleaving of them is a run. An
error of one event leaves the executor's loop with `?`; the module says what
becomes of the other events.
-/

namespace WorldIDBridge.Service

open TransitionRun

/-- What the executor reads of a `TreeChanged` event. -/
structure TreeChanged where
  postRoot : U256
  deriving DecidableEq, Repr

/-- What the executor's loop is left with. -/
inductive ExecutorError where
  /-- `estimate_messaging_fee` failed; what the error displays. -/
  | estimateMessagingFee (display : String)
  | propagateRoot (e : StateBridgeError)
  deriving DecidableEq, Repr

/-- `CHANNEL_CAPACITY`. -/
def channelCapacity : Nat := 100

/-! ## The two tasks -/

inductive Listener where
  | listening
  /-- In `tx.send(event).await`, on a full channel. -/
  | sending (event : TreeChanged)
  | exited
  deriving DecidableEq, Repr

inductive Executor where
  /-- In `rx.recv().await`. -/
  | receiving
  /-- In `estimate_messaging_fee(root).await`. -/
  | estimating (event : TreeChanged) (root : List Felt252)
  /-- In `propagate_root_with_retry(value).await`. -/
  | propagating (event : TreeChanged) (value : U256)
  | exited (result : Except ExecutorError Unit)

/-- The two tasks and their channel. `offered` are the events the listener
called `tx.send` with, `attempted` those the executor called
`propagate_root_with_retry` for, with the value; both oldest first. -/
structure EventPath where
  listener : Listener
  channel : Mpsc TreeChanged channelCapacity
  executor : Executor
  offered : List TreeChanged
  attempted : List (TreeChanged × U256)

namespace EventPath

def start : EventPath := ⟨.listening, .empty, .receiving, [], []⟩

/-- The listener polls `tx.send(event)`. When the receiver is gone it returns,
and drops its end. -/
def sendEvent (s : EventPath) (event : TreeChanged) : EventPath :=
  match s.channel.send event with
  | .sent channel => { s with listener := .listening, channel }
  | .full => { s with listener := .sending event }
  | .closed => { s with listener := .exited, channel := s.channel.dropSender }

/-- The executor calls `propagate_root_with_retry`. -/
def attempt (s : EventPath) (event : TreeChanged) (fee : Felt252) : EventPath :=
  { s with
    executor := .propagating event (feeToU256 fee)
    attempted := s.attempted ++ [(event, feeToU256 fee)] }

/-- The executor returns, and drops its end of the channel. -/
def exit (s : EventPath) (result : Except ExecutorError Unit) : EventPath :=
  { s with executor := .exited result, channel := s.channel.dropReceiver }

/-- The body of the loop, up to its first await point. -/
def handle (feeType : Fee) (s : EventPath) (event : TreeChanged) : EventPath :=
  let root := intoFelt event.postRoot
  match feeType with
  | .default => s.attempt event defaultFee
  | .estimate => { s with executor := .estimating event root }
  | .noFee => s.attempt event noFee

inductive Action where
  /-- The listener calls `tx.send` with a new event. -/
  | send (event : TreeChanged)
  /-- A `tx.send` that waits is polled again. -/
  | sendAgain
  /-- The listener gives up for good. -/
  | giveUp
  | recv
  | estimated (outcome : Except String Felt252)
  | propagated (outcome : Except StateBridgeError Unit)

/-- One step of one task; a step that is not its turn changes nothing. -/
def step (feeType : Fee) (s : EventPath) : Action → EventPath
  | .send event =>
      match s.listener with
      | .listening => sendEvent { s with offered := s.offered ++ [event] } event
      | _ => s
  | .sendAgain =>
      match s.listener with
      | .sending event => s.sendEvent event
      | _ => s
  | .giveUp =>
      match s.listener with
      | .listening => { s with listener := .exited, channel := s.channel.dropSender }
      | _ => s
  | .recv =>
      match s.executor with
      | .receiving =>
          match s.channel.recv? with
          | some (event, channel) => handle feeType { s with channel } event
          | none => if s.channel.senderGone then s.exit (.ok ()) else s
      | _ => s
  | .estimated outcome =>
      match s.executor with
      | .estimating event _ =>
          match outcome with
          | .ok overallFee => s.attempt event (capEstimatedFee overallFee)
          | .error e => s.exit (.error (.estimateMessagingFee e))
      | _ => s
  | .propagated outcome =>
      match s.executor with
      | .propagating _ _ =>
          match outcome with
          | .ok () => { s with executor := .receiving }
          -- the `?` leaves the loop, with the receiver
          | .error e => s.exit (.error (.propagateRoot e))
      | _ => s

/-! ## Nothing dropped -/

end EventPath

/-- The event the listener still holds. -/
def Listener.held : Listener → List TreeChanged
  | sending event => [event]
  | _ => []

@[simp] theorem Listener.held_listening : listening.held = [] := rfl
@[simp] theorem Listener.held_sending (event : TreeChanged) : (sending event).held = [event] := rfl
@[simp] theorem Listener.held_exited : exited.held = [] := rfl

/-- The event the executor took and has not attempted yet. -/
def Executor.held : Executor → List TreeChanged
  | estimating event _ => [event]
  | _ => []

@[simp] theorem Executor.held_receiving : receiving.held = [] := rfl
@[simp] theorem Executor.held_estimating (event : TreeChanged) (root : List Felt252) :
    (estimating event root).held = [event] := rfl
@[simp] theorem Executor.held_propagating (event : TreeChanged) (value : U256) :
    (propagating event value).held = [] := rfl
@[simp] theorem Executor.held_exited (result : Except ExecutorError Unit) :
    (exited result).held = [] := rfl

namespace EventPath

/-- The events on their way to an attempt, oldest first. -/
def pending (s : EventPath) : List TreeChanged :=
  s.executor.held ++ (s.channel.items ++ s.listener.held)

/-- Every event a propagation was attempted for or still will be. -/
def accounted (s : EventPath) : List TreeChanged := s.attempted.map Prod.fst ++ s.pending

/-- **Isolation**: every event offered was attempted exactly once or is on its
way, in the order offered. -/
def Isolated (s : EventPath) : Prop := s.offered = s.accounted

/-- Some event offered will never be attempted. -/
def Lossy (s : EventPath) : Prop := s.accounted.length < s.offered.length

/-- The steps that drop no event. -/
def Harmless (s : EventPath) : Action → Prop
  | .send _ => s.listener = .listening → s.channel.receiverGone = false
  | .sendAgain => s.listener.held ≠ [] → s.channel.receiverGone = false
  | .estimated (.error _) => s.executor.held = []
  | .propagated (.error _) =>
      (∃ event value, s.executor = .propagating event value) → s.channel.items = []
  | _ => True

/-- The events a step offers. -/
def offers (s : EventPath) : Action → List TreeChanged
  | .send event =>
      match s.listener with
      | .listening => [event]
      | _ => []
  | _ => []

/-- The events a step gives up: the one in hand, and those queued. -/
def givesUp (s : EventPath) : Action → List TreeChanged
  | .estimated (.error _) =>
      match s.executor with
      | .estimating event _ => event :: s.channel.items
      | _ => []
  | .propagated (.error _) =>
      match s.executor with
      | .propagating event _ => event :: s.channel.items
      | _ => []
  | _ => []

/-- The event the listener returns with, when the receiver is gone. -/
def unsent (s : EventPath) : Action → List TreeChanged
  | .send event =>
      match s.listener with
      | .listening => if s.channel.receiverGone = true then [event] else []
      | _ => []
  | .sendAgain => if s.channel.receiverGone = true then s.listener.held else []
  | _ => []

/-- The events a step drops: what the executor gives up but the event it tried,
and what the listener cannot send. -/
def lost (s : EventPath) : Action → List TreeChanged
  | .estimated outcome => s.givesUp (.estimated outcome)
  | .propagated outcome => (s.givesUp (.propagated outcome)).tail
  | a => s.unsent a

variable {feeType : Fee} {s : EventPath} {event : TreeChanged}

/-! ### What the parts of a step do to the account -/

/-- An event handed over is queued or held unless the receiver is gone. -/
theorem queued_sendEvent (s : EventPath) (event : TreeChanged) :
    (s.sendEvent event).channel.items ++ (s.sendEvent event).listener.held
      = s.channel.items ++ if s.channel.receiverGone = true then [] else [event] := by
  have hopen : s.channel.send event ≠ .closed → ¬ s.channel.receiverGone = true :=
    fun hne hgone => hne (Mpsc.send_of_receiverGone hgone)
  cases hsend : s.channel.send event with
  | sent channel =>
      have hopen := hopen (by simp [hsend])
      simp [sendEvent, hsend, Mpsc.items_of_sent hsend, hopen]
  | full =>
      have hopen := hopen (by simp [hsend])
      simp [sendEvent, hsend, hopen]
  | closed =>
      have hgone := Mpsc.receiverGone_of_closed hsend
      simp [sendEvent, hsend, hgone]

@[simp] theorem executor_sendEvent (s : EventPath) (event : TreeChanged) :
    (s.sendEvent event).executor = s.executor := by
  unfold sendEvent
  split <;> rfl

@[simp] theorem attempted_sendEvent (s : EventPath) (event : TreeChanged) :
    (s.sendEvent event).attempted = s.attempted := by
  unfold sendEvent
  split <;> rfl

/-- An event handed over is on its way unless the receiver is gone. -/
theorem accounted_sendEvent (s : EventPath) (event : TreeChanged) :
    (s.sendEvent event).accounted
      = s.attempted.map Prod.fst ++ (s.executor.held
          ++ (s.channel.items ++ if s.channel.receiverGone = true then [] else [event])) := by
  rw [accounted, pending, queued_sendEvent, executor_sendEvent, attempted_sendEvent]

@[simp] theorem offered_sendEvent (s : EventPath) (event : TreeChanged) :
    (s.sendEvent event).offered = s.offered := by
  unfold sendEvent
  split <;> rfl

theorem accounted_attempt (s : EventPath) (event : TreeChanged) (fee : Felt252) :
    (s.attempt event fee).accounted
      = s.attempted.map Prod.fst ++ (event :: (s.channel.items ++ s.listener.held)) := by
  simp [attempt, accounted, pending]

/-- The event in hand is attempted or held until its fee is known. -/
theorem accounted_handle (feeType : Fee) (s : EventPath) (event : TreeChanged) :
    (handle feeType s event).accounted
      = s.attempted.map Prod.fst ++ (event :: (s.channel.items ++ s.listener.held)) := by
  cases feeType with
  | default => exact accounted_attempt s event defaultFee
  | estimate => rfl
  | noFee => exact accounted_attempt s event noFee

@[simp] theorem offered_handle (feeType : Fee) (s : EventPath) (event : TreeChanged) :
    (handle feeType s event).offered = s.offered := by
  cases feeType <;> rfl

/-- The executor leaves nothing behind but what the listener holds. -/
theorem accounted_exit (s : EventPath) (result : Except ExecutorError Unit) :
    (s.exit result).accounted = s.attempted.map Prod.fst ++ s.listener.held := rfl

/-! ### What a step does to the account -/

theorem offered_step (feeType : Fee) (s : EventPath) (a : Action) :
    (s.step feeType a).offered = s.offered ++ s.offers a := by
  obtain ⟨listener, channel, executor, offered, attempted⟩ := s
  cases a with
  | send event => cases listener <;> simp [step, offers]
  | sendAgain => cases listener <;> simp [step, offers]
  | giveUp => cases listener <;> simp [step, offers]
  | recv =>
      cases executor with
      | receiving =>
          simp only [step, offers, List.append_nil]
          split
          · simp
          · split <;> rfl
      | _ => simp [step, offers]
  | estimated outcome => cases executor <;> cases outcome <;> simp [step, offers, attempt, exit]
  | propagated outcome => cases executor <;> cases outcome <;> simp [step, offers, exit]

/-- **One lemma for every step**: the account after it is the account before,
and what the step offers, without what the step drops. -/
theorem accounted_step (feeType : Fee) (s : EventPath) (a : Action) :
    ∃ before after, s.accounted ++ s.offers a = before ++ (s.lost a ++ after)
      ∧ (s.step feeType a).accounted = before ++ after := by
  obtain ⟨listener, channel, executor, offered, attempted⟩ := s
  -- a step that only moves an event on, or is not its turn
  have hkept : ∀ {before after offers lost : List TreeChanged}, offers = [] ∧ lost = [] →
      after = before →
      ∃ front back, before ++ offers = front ++ (lost ++ back) ∧ after = front ++ back := by
    rintro before after _ _ ⟨rfl, rfl⟩ rfl
    exact ⟨after, [], by simp, by simp⟩
  have hsent : ∀ event, ∃ before after,
      attempted.map Prod.fst ++ (executor.held ++ channel.items) ++ [event]
          = before ++ ((if channel.receiverGone = true then [event] else []) ++ after)
        ∧ attempted.map Prod.fst ++ (executor.held
            ++ (channel.items ++ if channel.receiverGone = true then [] else [event]))
          = before ++ after := by
    intro event
    refine ⟨attempted.map Prod.fst ++ (executor.held ++ channel.items),
      if channel.receiverGone = true then [] else [event], ?_, by simp⟩
    cases channel.receiverGone <;> simp
  cases a with
  | send event =>
      cases listener with
      | listening =>
          simp only [step, accounted_sendEvent]
          simpa [accounted, pending, offers, lost, unsent] using hsent event
      | _ => exact hkept ⟨rfl, rfl⟩ rfl
  | sendAgain =>
      cases listener with
      | sending event =>
          simp only [step, accounted_sendEvent]
          simpa [accounted, pending, offers, lost, unsent] using hsent event
      | listening => exact hkept ⟨rfl, ite_self _⟩ rfl
      | exited => exact hkept ⟨rfl, ite_self _⟩ rfl
  | giveUp => cases listener <;> exact hkept ⟨rfl, rfl⟩ rfl
  | recv =>
      cases executor with
      | receiving =>
          refine hkept ⟨rfl, rfl⟩ ?_
          simp only [step]
          split
          · rename_i hrecv
            rw [accounted_handle]
            simp [accounted, pending, Mpsc.items_of_recv? hrecv]
          · rename_i hrecv
            split
            · simp [accounted, pending, exit, Mpsc.recv?_eq_none hrecv]
            · rfl
      | _ => exact hkept ⟨rfl, rfl⟩ rfl
  | estimated outcome =>
      cases executor with
      | estimating event root =>
          cases outcome with
          | ok overallFee =>
              refine hkept ⟨rfl, rfl⟩ ?_
              simp only [step, accounted_attempt]
              simp [accounted, pending]
          | error e =>
              refine ⟨attempted.map Prod.fst, listener.held, ?_, accounted_exit _ _⟩
              simp [accounted, pending, offers, lost, givesUp]
      | _ => cases outcome <;> exact hkept ⟨rfl, rfl⟩ rfl
  | propagated outcome =>
      cases executor with
      | propagating event value =>
          cases outcome with
          | ok _ => exact hkept ⟨rfl, rfl⟩ (by simp [step, accounted, pending])
          | error e =>
              refine ⟨attempted.map Prod.fst, listener.held, ?_, accounted_exit _ _⟩
              simp [accounted, pending, offers, lost, givesUp]
      | _ => cases outcome <;> exact hkept ⟨rfl, rfl⟩ rfl

/-- The harmless steps are those that drop nothing. -/
theorem harmless_iff {a : Action} : s.Harmless a ↔ s.lost a = [] := by
  obtain ⟨listener, channel, executor, offered, attempted⟩ := s
  cases a with
  | send event => cases listener <;> simp [Harmless, lost, unsent]
  | sendAgain => cases listener <;> simp [Harmless, lost, unsent]
  | giveUp => exact iff_of_true trivial rfl
  | recv => exact iff_of_true trivial rfl
  | estimated outcome => cases outcome <;> cases executor <;> simp [Harmless, lost, givesUp]
  | propagated outcome => cases outcome <;> cases executor <;> simp [Harmless, lost, givesUp]

/-- A harmless step keeps every event in the account and adds what it
offers. -/
theorem accounted_of_harmless (feeType : Fee) {a : Action} (h : s.Harmless a) :
    (s.step feeType a).accounted = s.accounted ++ s.offers a := by
  obtain ⟨before, after, hbefore, hafter⟩ := accounted_step feeType s a
  rw [hafter, hbefore, harmless_iff.mp h, List.nil_append]

/-- Any other step drops an event. -/
theorem accounted_of_not_harmless (feeType : Fee) {a : Action} (h : ¬ s.Harmless a) :
    (s.step feeType a).accounted.length < (s.accounted ++ s.offers a).length := by
  obtain ⟨before, after, hbefore, hafter⟩ := accounted_step feeType s a
  have hlost : 0 < (s.lost a).length :=
    List.length_pos_of_ne_nil fun hnil => h (harmless_iff.mpr hnil)
  rw [hafter, hbefore]
  simp only [List.length_append]
  omega

/-! ### When both tasks rest -/

/-- Neither task can move unless the listener has a new event. -/
structure Quiet (feeType : Fee) (s : EventPath) : Prop where
  sendAgain : s.step feeType .sendAgain = s
  recv : s.step feeType .recv = s
  estimated : ∀ outcome, s.step feeType (.estimated outcome) = s
  propagated : ∀ outcome, s.step feeType (.propagated outcome) = s

/-- An executor that returned has dropped its end. -/
def Closed (s : EventPath) : Prop :=
  ∀ result, s.executor = .exited result → s.channel.receiverGone = true

@[simp] theorem receiverGone_sendEvent (s : EventPath) (event : TreeChanged) :
    (s.sendEvent event).channel.receiverGone = s.channel.receiverGone := by
  unfold sendEvent
  split
  · rename_i hsend
    exact Mpsc.receiverGone_of_sent hsend
  · rfl
  · rfl

theorem not_exited_handle (feeType : Fee) (s : EventPath) (event : TreeChanged)
    (result : Except ExecutorError Unit) : (handle feeType s event).executor ≠ .exited result := by
  cases feeType <;> exact nofun

theorem Closed.step (h : s.Closed) (feeType : Fee) (a : Action) : (s.step feeType a).Closed := by
  obtain ⟨listener, channel, executor, offered, attempted⟩ := s
  intro result hexit
  cases a with
  | send event =>
      cases listener with
      | listening =>
          simp only [EventPath.step, executor_sendEvent, receiverGone_sendEvent] at hexit ⊢
          exact h result hexit
      | _ => exact h result hexit
  | sendAgain =>
      cases listener with
      | sending event =>
          simp only [EventPath.step, executor_sendEvent, receiverGone_sendEvent] at hexit ⊢
          exact h result hexit
      | _ => exact h result hexit
  | giveUp => cases listener <;> exact h result hexit
  | recv =>
      cases executor with
      | receiving =>
          simp only [EventPath.step] at hexit ⊢
          split at hexit
          · exact absurd hexit (not_exited_handle _ _ _ _)
          · split at hexit
            · rename_i hgone
              simp [hgone, exit]
            · cases hexit
      | _ => exact h result hexit
  | estimated outcome =>
      cases executor with
      | estimating event root =>
          cases outcome with
          | ok overallFee => cases hexit
          | error e => rfl
      | _ => exact h result hexit
  | propagated outcome =>
      cases executor with
      | propagating event value =>
          cases outcome with
          | ok _ => cases hexit
          | error e => rfl
      | _ => exact h result hexit

/-- At rest nothing is on its way. -/
theorem pending_of_quiet (hclosed : s.Closed) (hquiet : s.Quiet feeType) : s.pending = [] := by
  obtain ⟨listener, channel, executor, offered, attempted⟩ := s
  have hexecutor : executor.held = [] := by
    cases executor with
    -- an estimate that is waited for may still arrive
    | estimating event root =>
        have hmove := congrArg EventPath.executor (hquiet.estimated (.ok 0))
        cases hmove
    | _ => rfl
  have hitems : channel.items = [] := by
    cases executor with
    | receiving =>
        have hmove := hquiet.recv
        simp only [step] at hmove
        cases hrecv : channel.recv? with
        | none => exact Mpsc.recv?_eq_none hrecv
        | some taken =>
            rw [hrecv] at hmove
            -- whatever the fee mode, an item received takes the executor out of `recv`
            have hexec := congrArg EventPath.executor hmove
            cases feeType <;> cases hexec
    | estimating event root => cases hexecutor
    | propagating event value =>
        have hmove := congrArg EventPath.executor (hquiet.propagated (.ok ()))
        cases hmove
    | exited result => exact channel.dropped (hclosed result rfl)
  have hlistener : listener.held = [] := by
    cases listener with
    | sending event =>
        have hmove := congrArg EventPath.listener hquiet.sendAgain
        simp only [step, sendEvent] at hmove
        split at hmove
        · cases hmove
        · -- a full channel would keep the send waiting, but the channel is empty
          rename_i hfull
          exact absurd hitems (Mpsc.items_ne_nil_of_full hfull (by decide))
        · cases hmove
    | _ => rfl
  simp [pending, hexecutor, hitems, hlistener]

/-! ### Runs -/

theorem closed_run (feeType : Fee) (as : List Action) : (run (step feeType) start as).Closed :=
  run_invariant _ (fun _ a h _ => h.step feeType a) nofun (along_true (step feeType) start as)

theorem isolated_run_iff (feeType : Fee) (as : List Action) :
    (run (step feeType) start as).Isolated ↔ Along (step feeType) Harmless start as := by
  refine run_iff_along (step feeType) (D := Lossy) ?_ ?_ ?_ ?_ rfl
  · intro s a hiso hharm
    show (s.step feeType a).offered = (s.step feeType a).accounted
    rw [offered_step, accounted_of_harmless feeType hharm, ← hiso]
  · intro s a hiso hharm
    have hlt := accounted_of_not_harmless feeType hharm
    show (s.step feeType a).accounted.length < (s.step feeType a).offered.length
    rw [offered_step, hiso]
    exact hlt
  · -- a step never accounts for more than it offers, so what is lost stays lost
    intro s a hlossy
    show (s.step feeType a).accounted.length < (s.step feeType a).offered.length
    have hle : (s.step feeType a).accounted.length ≤ (s.accounted ++ s.offers a).length := by
      obtain ⟨before, after, hbefore, hafter⟩ := accounted_step feeType s a
      rw [hbefore, hafter]
      simp only [List.length_append]
      omega
    have hlt : s.accounted.length < s.offered.length := hlossy
    rw [offered_step]
    rw [List.length_append] at hle ⊢
    omega
  · intro s hlossy hiso
    have hlt : s.accounted.length < s.offered.length := hlossy
    rw [← hiso] at hlt
    exact Nat.lt_irrefl _ hlt

end EventPath

/-! ## Isolation of the executor -/

open EventPath in
/-- **Isolation holds in exactly the runs whose steps are harmless**: no fee
estimation fails, a propagation fails only with no event queued, and the
listener hands nothing over after that. At rest it says that the events
attempted are the events offered. -/
theorem execute_isolated_iff (feeType : Fee) (as : List Action) :
    ((run (step feeType) start as).Isolated ↔ Along (step feeType) Harmless start as)
      ∧ ((run (step feeType) start as).Quiet feeType →
        ((run (step feeType) start as).attempted.map Prod.fst
            = (run (step feeType) start as).offered
          ↔ Along (step feeType) Harmless start as)) := by
  have hrun := isolated_run_iff feeType as
  refine ⟨hrun, fun hquiet => ?_⟩
  have hrest := pending_of_quiet (closed_run feeType as) hquiet
  rw [← hrun, Isolated, accounted, hrest, List.append_nil]
  exact eq_comm

/-! ## A failed propagation -/

/-- The propagation for the first event fails with the second one queued; the
listener sends a third. -/
def failedPropagation : List EventPath.Action :=
  [.send ⟨5⟩, .send ⟨6⟩, .recv, .propagated (.error (.gasLimitError 400000)), .send ⟨7⟩]

open EventPath in
/-- The second and the third event are dropped, and both tasks are gone. -/
theorem failed_propagation_drops_events :
    (run (step .default) start failedPropagation).offered = [⟨5⟩, ⟨6⟩, ⟨7⟩]
      ∧ (run (step .default) start failedPropagation).attempted = [(⟨5⟩, 1000000000)]
      ∧ (run (step .default) start failedPropagation).executor
          = .exited (.error (.propagateRoot (.gasLimitError 400000)))
      ∧ (run (step .default) start failedPropagation).listener = .exited
      ∧ ¬ (run (step .default) start failedPropagation).Isolated := by
  refine ⟨rfl, rfl, rfl, rfl, ?_⟩
  intro hiso
  exact absurd (congrArg List.length hiso) (by decide)

open EventPath in
/-- Both events are attempted when the first propagation succeeds, also if
the second, with nothing queued, fails. -/
theorem execute_isolated_iff_sample :
    (run (step .default) start [.send ⟨5⟩, .send ⟨6⟩, .recv, .propagated (.ok ()), .recv,
        .propagated (.error (.gasLimitError 400000))]).attempted.map Prod.fst = [⟨5⟩, ⟨6⟩] :=
  ((execute_isolated_iff .default [.send ⟨5⟩, .send ⟨6⟩, .recv, .propagated (.ok ()), .recv,
      .propagated (.error (.gasLimitError 400000))]).2
    ⟨rfl, rfl, fun _ => rfl, fun _ => rfl⟩).mpr
    ⟨fun _ => rfl, fun _ => rfl, trivial, trivial, trivial, fun _ => rfl, trivial⟩

end WorldIDBridge.Service
