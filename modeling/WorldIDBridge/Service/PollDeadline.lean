import WorldIDBridge.Service.Relay

/-!
# The deadline of the poller

The poller sleeps until its deadline. The listener moves the deadline with
signals: a new connection brings it forward, so that the roots missed while
there was none are caught up with, and every log puts it off. The module adds
the deadline, the signals and the connection to the relay, and lets no time
pass while a poller or a listener that waits has something to do. It says when
the poll a connection asks for is made in time.
-/

namespace WorldIDBridge.Service

open TransitionRun

/-! ## The deadline -/

/-- `POLL_INTERVAL`: half an hour. -/
def pollInterval : Nat := 1800 * 10 ^ 9

/-- `RECONNECT_POLL_DELAY`: five minutes. -/
def reconnectPollDelay : Nat := 300 * 10 ^ 9

inductive PollSignal where
  | reset
  | expedite
  deriving DecidableEq, Repr

def computeNextPollDeadline (now currentDeadline : Nat) (signal : PollSignal)
    (pollInterval reconnectDelay : Nat) : Nat :=
  match signal with
  | .reset => now + pollInterval
  | .expedite =>
      let expedite := now + reconnectDelay
      if expedite < currentDeadline then expedite else currentDeadline

/-- An expedite signal brings the deadline forward, and never puts it off. -/
theorem computeNextPollDeadline_expedite (now currentDeadline pollInterval reconnectDelay : Nat) :
    computeNextPollDeadline now currentDeadline .expedite pollInterval reconnectDelay
      = min (now + reconnectDelay) currentDeadline := by
  simp only [computeNextPollDeadline]
  split <;> omega

example : computeNextPollDeadline 0 10 .expedite 60 30 = 10 := rfl

/-! ## The relay and its deadline -/

/-- The relay with the connection of its listener, the channel of the signals
and the poller's deadline. The function that starts the tasks keeps a sender
of the signals, so only the poller can close the channel. -/
structure TimedRelay where
  relay : Relay
  connected : Bool
  signals : List PollSignal
  nextDeadline : Nat

namespace TimedRelay

def start (now : Nat) : TimedRelay :=
  { relay := .start now, connected := false, signals := [], nextDeadline := now + pollInterval }

/-- The listener does not wait to send a signal: there is room, or no poller. -/
def HasRoom (s : TimedRelay) : Prop :=
  s.relay.poller = .exited ∨ s.signals.length < channelCapacity

instance (s : TimedRelay) : Decidable s.HasRoom := inferInstanceAs (Decidable (_ ∨ _))

/-- `poll_tx.send(signal)`, whose error is ignored. -/
def sendSignal (s : TimedRelay) (signal : PollSignal) : TimedRelay :=
  if s.relay.poller = .exited then s else { s with signals := s.signals ++ [signal] }

/-- The listener can connect: it has no connection, and has not returned. -/
def CanConnect (s : TimedRelay) : Prop :=
  s.connected = false ∧ s.relay.path.listener = .listening ∧ s.HasRoom

instance (s : TimedRelay) : Decidable s.CanConnect := inferInstanceAs (Decidable (_ ∧ _))

/-- The listener can take a log from its stream. -/
def CanReceive (s : TimedRelay) : Prop :=
  s.connected = true ∧ s.relay.path.listener = .listening ∧ s.HasRoom

instance (s : TimedRelay) : Decidable s.CanReceive := inferInstanceAs (Decidable (_ ∧ _))

/-- The executor is there, and its channel has no room for one more event. -/
def Full (s : TimedRelay) : Prop :=
  s.relay.path.channel.receiverGone = false
    ∧ channelCapacity ≤ s.relay.path.channel.items.length

instance (s : TimedRelay) : Decidable s.Full := inferInstanceAs (Decidable (_ ∧ _))

/-- A poller that waits has no signal, and its deadline is not over then; a
listener that waits to send an event waits for room. -/
def MayElapse (s : TimedRelay) (duration : Nat) : Prop :=
  (s.relay.poller = .waiting → s.signals = [] ∧ s.relay.now + duration ≤ s.nextDeadline)
    ∧ (s.relay.path.listener.held ≠ [] → s.Full)

instance (s : TimedRelay) (duration : Nat) : Decidable (s.MayElapse duration) :=
  inferInstanceAs (Decidable ((_ → _) ∧ (_ → _)))

/-- A step of the relay. A poller that comes back from a poll sets its next
deadline; one that panicked drops the signals. -/
def relayStep (feeType : Fee) (s : TimedRelay) (a : Relay.Action) : TimedRelay :=
  let relay := s.relay.step feeType a
  { s with
    relay
    signals := if relay.poller = .exited then [] else s.signals
    nextDeadline := if s.relay.poller ≠ .waiting ∧ relay.poller = .waiting
      then relay.now + pollInterval else s.nextDeadline }

/-- The listener takes a log from its stream; `none` is one that cannot be
decoded. The signal goes out before the log is looked at. -/
def receiveLog (feeType : Fee) (s : TimedRelay) (log : Option TreeChanged) : TimedRelay :=
  let s := s.sendSignal .reset
  match log with
  | some event => { s with relay := s.relay.step feeType (.event event) }
  | none => s

inductive Action where
  | connect
  /-- The stream ends, or there is none. -/
  | disconnect
  | log (log : Option TreeChanged)
  /-- The listener gives up for good, without a connection. -/
  | giveUp
  /-- The poller receives a signal. -/
  | signal
  | elapse (duration : Nat)
  | poll
  /-- A step of the relay that is none of the above. -/
  | task (a : Relay.Action)

/-- The steps of the relay that have no action of their own here. -/
def ofTask : Relay.Action → Bool
  | .elapse _ => false
  | .event _ => false
  | .giveUp => false
  | .poll => false
  | _ => true

/-- One step; a step that is not its turn changes nothing. -/
def step (feeType : Fee) (s : TimedRelay) : Action → TimedRelay
  | .connect =>
      if s.CanConnect then { s.sendSignal .expedite with connected := true } else s
  | .disconnect =>
      if s.relay.path.listener = .listening then { s with connected := false } else s
  | .log log => if s.CanReceive then s.receiveLog feeType log else s
  | .giveUp => if s.connected = true then s else s.relayStep feeType .giveUp
  | .signal =>
      match s.relay.poller, s.signals with
      | .waiting, signal :: signals =>
          { s with
            signals
            nextDeadline := computeNextPollDeadline s.relay.now s.nextDeadline signal pollInterval
              reconnectPollDelay }
      | _, _ => s
  | .elapse duration =>
      if s.MayElapse duration then s.relayStep feeType (.elapse duration) else s
  | .poll => if s.nextDeadline ≤ s.relay.now then s.relayStep feeType .poll else s
  | .task a => if ofTask a = true then s.relayStep feeType a else s

variable {feeType : Fee} {s : TimedRelay}

/-! ### The relay inside -/

@[simp] theorem relay_sendSignal (s : TimedRelay) (signal : PollSignal) :
    (s.sendSignal signal).relay = s.relay := by
  unfold sendSignal
  split <;> rfl

/-- **The relay inside**: a step is a step of the relay, or leaves it alone. -/
theorem relay_step (feeType : Fee) (s : TimedRelay) (a : Action) :
    (s.step feeType a).relay = s.relay
      ∨ ∃ b, (s.step feeType a).relay = s.relay.step feeType b := by
  cases a with
  | connect =>
      left
      simp only [step]
      split
      · exact relay_sendSignal s .expedite
      · rfl
  | disconnect =>
      left
      simp only [step]
      split <;> rfl
  | log log =>
      simp only [step, receiveLog]
      split
      · cases log with
        | none => exact .inl (relay_sendSignal s .reset)
        | some event =>
            right
            refine ⟨.event event, ?_⟩
            show (s.sendSignal .reset).relay.step feeType (.event event) = _
            rw [relay_sendSignal]
      · exact .inl rfl
  | giveUp =>
      simp only [step]
      split
      · exact .inl rfl
      · exact .inr ⟨.giveUp, rfl⟩
  | signal =>
      left
      simp only [step]
      split <;> rfl
  | elapse duration =>
      simp only [step]
      split
      · exact .inr ⟨.elapse duration, rfl⟩
      · exact .inl rfl
  | poll =>
      simp only [step]
      split
      · exact .inr ⟨.poll, rfl⟩
      · exact .inl rfl
  | task a =>
      simp only [step]
      split
      · exact .inr ⟨a, rfl⟩
      · exact .inl rfl

/-- The deadlines take away runs of the relay, and add none. -/
theorem relay_run (feeType : Fee) (now : Nat) (as : List Action) :
    ∃ bs, (run (step feeType) (start now) as).relay
      = run (Relay.step feeType) (Relay.start now) bs := by
  refine run_invariant (step feeType)
    (I := fun s => ∃ bs, s.relay = run (Relay.step feeType) (Relay.start now) bs)
    (P := fun _ _ => True) ?_ ⟨[], rfl⟩ (along_true _ _ as)
  intro s a hs _
  obtain ⟨bs, hs⟩ := hs
  cases relay_step feeType s a with
  | inl hsame => exact ⟨bs, hsame.trans hs⟩
  | inr hnext =>
      obtain ⟨b, hnext⟩ := hnext
      refine ⟨bs ++ [b], ?_⟩
      rw [run_snoc, ← hs]
      exact hnext

/-! ## Catching up -/

/-- The step starts a poll. -/
def Polls (feeType : Fee) (s : TimedRelay) (a : Action) : Prop :=
  s.relay.poller = .waiting ∧ (s.step feeType a).relay.poller = .fetching

/-- The step puts an event into the executor's channel. -/
def Enqueues (feeType : Fee) (s : TimedRelay) (a : Action) : Prop :=
  ∃ event, (s.step feeType a).relay.path.channel.items = s.relay.path.channel.items ++ [event]

/-- The step is a catch-up, not later than `limit`. -/
def CatchesUp (feeType : Fee) (limit : Nat) (s : TimedRelay) (a : Action) : Prop :=
  s.relay.now ≤ limit ∧ (s.Polls feeType a ∨ s.Enqueues feeType a)

/-- The executor's channel takes one more event. -/
def Open (s : TimedRelay) : Prop :=
  s.relay.path.channel.receiverGone = false ∧ s.relay.path.channel.items.length < channelCapacity

/-- A log, if one is received, is an event whose root is not in the cache, with
the executor there. Where its channel is full, the event that waits finds room by
`limit`, and the executor does not leave before. -/
def Propagates (limit : Nat) (s : TimedRelay) : Action → Prop
  | .log log => s.CanReceive →
      ∃ event, log = some event ∧ (s.relay.cache.contains s.relay.now event.postRoot).1 = false
        ∧ s.relay.path.channel.receiverGone = false
  | .elapse duration => s.relay.path.listener.held ≠ [] → s.relay.now + duration ≤ limit
  | .task .sendAgain => s.relay.path.listener.held ≠ [] → s.relay.path.channel.receiverGone = false
  | _ => True

/-- The deadline once the signals there are have been received. -/
def settledDeadline (s : TimedRelay) : Nat :=
  s.signals.foldl (fun deadline signal =>
    computeNextPollDeadline s.relay.now deadline signal pollInterval reconnectPollDelay)
    s.nextDeadline

/-- The poller will poll by `limit`, if nothing puts it off. -/
structure Due (limit : Nat) (s : TimedRelay) : Prop where
  waiting : s.relay.poller = .waiting
  now : s.relay.now ≤ limit
  deadline : s.settledDeadline ≤ limit

/-- An event that was received waits for room in the executor's channel. -/
structure Pending (limit : Nat) (s : TimedRelay) : Prop where
  waiting : s.relay.poller = .waiting
  now : s.relay.now ≤ limit
  sending : ∃ event, s.relay.path.listener = .sending event

/-- What a log is good for that is to be propagated: its event goes into the
executor's channel, or waits for room in it. -/
theorem enqueues_of_propagates {limit : Nat} {log : Option TreeChanged} (hreceive : s.CanReceive)
    (h : s.Propagates limit (.log log)) : s.Enqueues feeType (.log log)
      ∨ ∃ event, (s.step feeType (.log log)).relay.path.listener = .sending event := by
  obtain ⟨event, rfl, hmiss, hopen⟩ := h hreceive
  have hlistener := hreceive.2.1
  have hnext : (s.step feeType (.log (some event))).relay = s.relay.receive feeType event := by
    simp only [step, if_pos hreceive, receiveLog, relay_sendSignal, Relay.step, hlistener]
  rw [Enqueues, hnext, Relay.receive]
  simp only [hmiss, EventPath.step, hlistener, EventPath.sendEvent]
  cases hsend : s.relay.path.channel.send event with
  | sent channel => exact .inl ⟨event, Mpsc.items_of_sent hsend⟩
  | full => exact .inr ⟨event, rfl⟩
  | closed =>
      rw [Mpsc.receiverGone_of_closed hsend] at hopen
      cases hopen

/-- An event that waits goes into the channel once there is room. -/
theorem enqueues_of_open (hheld : s.relay.path.listener.held ≠ []) (hopen : s.Open) :
    s.Enqueues feeType (.task .sendAgain) := by
  cases hlistener : s.relay.path.listener with
  | sending event =>
      refine ⟨event, ?_⟩
      have hsent : ∃ channel, s.relay.path.channel.send event = .sent channel := by
        rw [Mpsc.send, dif_neg (by rw [hopen.1]; exact Bool.false_ne_true), dif_pos hopen.2]
        exact ⟨_, rfl⟩
      obtain ⟨channel, hsent⟩ := hsent
      simp only [step, ofTask, if_true, relayStep, Relay.step, Relay.pathStep, EventPath.step,
        hlistener, EventPath.sendEvent, hsent]
      exact Mpsc.items_of_sent hsent
  | _ =>
      rw [hlistener] at hheld
      exact absurd rfl hheld

/-! ### One step -/

/-- A poller that waits goes on waiting, unless its deadline is over. -/
theorem waiting_of_step (feeType : Fee) {r : Relay} (hwaiting : r.poller = .waiting)
    {a : Relay.Action} (ha : ofTask a = true ∨ a = .giveUp) :
    (r.step feeType a).poller = .waiting ∧ (r.step feeType a).now = r.now := by
  cases a with
  | elapse _ => simp [ofTask] at ha
  | event _ => simp [ofTask] at ha
  | poll => simp [ofTask] at ha
  | fetched _ _ => simp [Relay.step, hwaiting]
  | pollEstimated _ => simp [Relay.step, hwaiting]
  | pollPropagated _ => simp [Relay.step, hwaiting]
  | _ => exact ⟨hwaiting, rfl⟩

theorem relayStep_of_waiting (feeType : Fee) (hwaiting : s.relay.poller = .waiting)
    {a : Relay.Action} (hnext : (s.relay.step feeType a).poller = .waiting) :
    (s.relayStep feeType a).signals = s.signals
      ∧ (s.relayStep feeType a).nextDeadline = s.nextDeadline :=
  ⟨if_neg (by rw [hnext]; exact nofun), if_neg fun hback => hback.1 hwaiting⟩

theorem Due.relayStep {limit : Nat} (h : s.Due limit) {a : Relay.Action}
    (hwaiting : (s.relay.step feeType a).poller = .waiting)
    (hnow : (s.relay.step feeType a).now = s.relay.now) : (s.relayStep feeType a).Due limit := by
  obtain ⟨hsignals, hdeadline⟩ := relayStep_of_waiting feeType h.waiting hwaiting
  refine ⟨hwaiting, hnow.trans_le h.now, ?_⟩
  have hsettled := h.deadline
  rw [settledDeadline] at hsettled ⊢
  rw [hsignals, hdeadline]
  show List.foldl (fun deadline signal => computeNextPollDeadline (s.relay.step feeType a).now
    deadline signal pollInterval reconnectPollDelay) _ _ ≤ limit
  rwa [hnow]

/-- A signal the poller will receive. -/
theorem settledDeadline_sendSignal (hwaiting : s.relay.poller = .waiting) (signal : PollSignal) :
    (s.sendSignal signal).settledDeadline = computeNextPollDeadline s.relay.now s.settledDeadline
      signal pollInterval reconnectPollDelay := by
  have hopen : ¬ s.relay.poller = .exited := by
    rw [hwaiting]
    exact nofun
  rw [sendSignal, if_neg hopen]
  simp only [settledDeadline, List.foldl_append, List.foldl_cons, List.foldl_nil]

/-- A connection brings the poll forward, and never puts it off. -/
theorem due_expedite {limit : Nat} (hwaiting : s.relay.poller = .waiting)
    (hnow : s.relay.now ≤ limit)
    (hdeadline : min (s.relay.now + reconnectPollDelay) s.settledDeadline ≤ limit) :
    Due limit { s.sendSignal .expedite with connected := true } := by
  refine ⟨?_, ?_, ?_⟩
  · rw [relay_sendSignal]
    exact hwaiting
  · rw [relay_sendSignal]
    exact hnow
  · show (s.sendSignal .expedite).settledDeadline ≤ limit
    rw [settledDeadline_sendSignal hwaiting, computeNextPollDeadline_expedite]
    exact hdeadline

theorem due_connect (hconnect : s.CanConnect) (hwaiting : s.relay.poller = .waiting) :
    (s.step feeType .connect).Due (s.relay.now + reconnectPollDelay) := by
  simp only [step, if_pos hconnect]
  exact due_expedite hwaiting (Nat.le_add_right _ _) (Nat.min_le_left _ _)

/-- **A log**, whatever it is good for, puts the poll off by half an hour. -/
theorem settledDeadline_of_log (hreceive : s.CanReceive) (hwaiting : s.relay.poller = .waiting)
    (log : Option TreeChanged) :
    (s.step feeType (.log log)).settledDeadline = s.relay.now + pollInterval := by
  simp only [step, if_pos hreceive, receiveLog]
  cases log with
  | none => exact settledDeadline_sendSignal hwaiting .reset
  | some event =>
      have hsettled := settledDeadline_sendSignal hwaiting .reset
      rw [settledDeadline] at hsettled ⊢
      simp only [relay_sendSignal, (Relay.frame_event feeType s.relay event).2] at hsettled ⊢
      exact hsettled

/-- A poller whose deadline is over polls. -/
theorem polls_of_over (hwaiting : s.relay.poller = .waiting)
    (hover : s.nextDeadline ≤ s.relay.now) : s.Polls feeType .poll := by
  refine ⟨hwaiting, ?_⟩
  simp only [step, if_pos hover, relayStep, Relay.step, hwaiting]

/-- A log leaves the poller and the clock alone. -/
theorem frame_log (feeType : Fee) (s : TimedRelay) (log : Option TreeChanged) :
    (s.step feeType (.log log)).relay.poller = s.relay.poller
      ∧ (s.step feeType (.log log)).relay.now = s.relay.now := by
  simp only [step]
  split
  · cases log with
    | none => simp only [receiveLog, relay_sendSignal, and_self]
    | some event =>
        simp only [receiveLog, relay_sendSignal]
        exact Relay.frame_event feeType s.relay event
  · exact ⟨rfl, rfl⟩

/-- As long as the logs received are to be propagated, a poll that is due is
made in time, or remains due, or an event waits to be enqueued. -/
theorem due_step {limit : Nat} {a : Action} (h : s.Due limit)
    (hpropagates : s.Propagates limit a) :
    s.CatchesUp feeType limit a ∨ (s.step feeType a).Due limit
      ∨ (s.step feeType a).Pending limit := by
  cases a with
  | connect =>
      right; left
      simp only [step]
      split
      · exact due_expedite h.waiting h.now ((Nat.min_le_right _ _).trans h.deadline)
      · exact h
  | disconnect =>
      right; left
      simp only [step]
      split
      · exact ⟨h.waiting, h.now, h.deadline⟩
      · exact h
  | log log =>
      by_cases hreceive : s.CanReceive
      · have hsent : s.Enqueues feeType (.log log)
            ∨ ∃ event, (s.step feeType (.log log)).relay.path.listener = .sending event :=
          enqueues_of_propagates hreceive hpropagates
        rcases hsent with henqueues | hsending
        · exact .inl ⟨h.now, .inr henqueues⟩
        · obtain ⟨hpoller, hnow⟩ := frame_log feeType s log
          exact .inr (.inr ⟨hpoller.trans h.waiting, hnow.trans_le h.now, hsending⟩)
      · right; left
        simp only [step, if_neg hreceive]
        exact h
  | giveUp =>
      right; left
      simp only [step]
      split
      · exact h
      · obtain ⟨hwaiting, hnow⟩ := waiting_of_step feeType h.waiting (.inr rfl)
        exact h.relayStep hwaiting hnow
  | signal =>
      right; left
      simp only [step, h.waiting]
      split
      · rename_i signal signals _ hsignals
        -- the deadline is the one that was coming
        refine ⟨h.waiting, h.now, ?_⟩
        have hsettled := h.deadline
        rw [settledDeadline, hsignals] at hsettled
        exact hsettled
      · exact h
  | elapse duration =>
      right; left
      simp only [step]
      split
      · rename_i hmay
        obtain ⟨hnone, hdeadline⟩ := hmay.1 h.waiting
        have hsettled := h.deadline
        rw [settledDeadline, hnone, List.foldl_nil] at hsettled
        refine ⟨h.waiting, hdeadline.trans hsettled, ?_⟩
        obtain ⟨hsignals, hnext⟩ := relayStep_of_waiting feeType h.waiting
          (a := .elapse duration) h.waiting
        rw [settledDeadline, hsignals, hnone, hnext, List.foldl_nil]
        exact hsettled
      · exact h
  | poll =>
      by_cases hover : s.nextDeadline ≤ s.relay.now
      · exact .inl ⟨h.now, .inl (polls_of_over h.waiting hover)⟩
      · right; left
        simp only [step, if_neg hover]
        exact h
  | task a =>
      right; left
      simp only [step]
      split
      · rename_i ha
        obtain ⟨hwaiting, hnow⟩ := waiting_of_step feeType h.waiting (.inl ha)
        exact h.relayStep hwaiting hnow
      · exact h

/-- A listener that waits to send goes on waiting, but for its own step. -/
theorem sending_of_step (feeType : Fee) {r : Relay} {event : TreeChanged}
    (hwaiting : r.poller = .waiting) (hsending : r.path.listener = .sending event)
    {a : Relay.Action} (ha : ofTask a = true ∨ a = .giveUp) (hother : a ≠ .sendAgain) :
    (r.step feeType a).path.listener = .sending event := by
  cases a with
  | elapse _ => simp [ofTask] at ha
  | event _ => simp [ofTask] at ha
  | poll => simp [ofTask] at ha
  | sendAgain => exact absurd rfl hother
  | giveUp =>
      simp only [Relay.step, Relay.pathStep, EventPath.step, hsending]
  | recv =>
      simp only [Relay.step, Relay.pathStep, EventPath.step]
      split
      · split
        · cases feeType <;> exact hsending
        · split <;> exact hsending
      · exact hsending
  | estimated outcome =>
      simp only [Relay.step, Relay.pathStep, EventPath.step]
      split
      · split <;> exact hsending
      · exact hsending
  | propagated outcome =>
      simp only [Relay.step, Relay.pathStep, EventPath.step]
      split
      · split <;> exact hsending
      · exact hsending
  | fetched _ _ => simpa [Relay.step, hwaiting] using hsending
  | pollEstimated _ => simpa [Relay.step, hwaiting] using hsending
  | pollPropagated _ => simpa [Relay.step, hwaiting] using hsending

theorem Pending.relayStep {limit : Nat} (h : s.Pending limit) {a : Relay.Action}
    (ha : ofTask a = true ∨ a = .giveUp) (hother : a ≠ .sendAgain) :
    (s.relayStep feeType a).Pending limit := by
  obtain ⟨event, hsending⟩ := h.sending
  obtain ⟨hwaiting, hnow⟩ := waiting_of_step feeType h.waiting ha
  exact ⟨hwaiting, hnow.trans_le h.now, event,
    sending_of_step feeType h.waiting hsending ha hother⟩

/-- An event that waits is enqueued in time, or waits on. -/
theorem pending_step {limit : Nat} {a : Action} (h : s.Pending limit)
    (hpropagates : s.Propagates limit a) :
    s.CatchesUp feeType limit a ∨ (s.step feeType a).Pending limit := by
  obtain ⟨event, hsending⟩ := h.sending
  have hheld : s.relay.path.listener.held ≠ [] := by
    rw [hsending]
    exact List.cons_ne_nil _ _
  have hbusy : ¬ s.relay.path.listener = .listening := by
    rw [hsending]
    exact nofun
  cases a with
  | connect =>
      right
      rw [step, if_neg fun hconnect => hbusy hconnect.2.1]
      exact h
  | disconnect =>
      right
      rw [step, if_neg hbusy]
      exact h
  | log log =>
      right
      rw [step, if_neg fun hreceive => hbusy hreceive.2.1]
      exact h
  | giveUp =>
      right
      simp only [step]
      split
      · exact h
      · exact h.relayStep (.inr rfl) nofun
  | signal =>
      right
      simp only [step, h.waiting]
      split
      · exact ⟨h.waiting, h.now, event, hsending⟩
      · exact h
  | elapse duration =>
      right
      simp only [step]
      split
      · exact ⟨h.waiting, hpropagates hheld, event, hsending⟩
      · exact h
  | poll =>
      by_cases hover : s.nextDeadline ≤ s.relay.now
      · exact .inl ⟨h.now, .inl (polls_of_over h.waiting hover)⟩
      · right
        simp only [step, if_neg hover]
        exact h
  | task a =>
      by_cases ha : ofTask a = true
      swap
      · right
        simp only [step, if_neg ha]
        exact h
      by_cases hagain : a = .sendAgain
      swap
      · right
        simp only [step, if_pos ha]
        exact h.relayStep (.inl ha) hagain
      subst hagain
      by_cases hroom : s.relay.path.channel.items.length < channelCapacity
      · exact .inl ⟨h.now, .inr (enqueues_of_open hheld ⟨hpropagates hheld, hroom⟩)⟩
      · right
        have hfull : s.relay.path.channel.send event = .full := by
          rw [Mpsc.send, dif_neg (by rw [hpropagates hheld]; exact Bool.false_ne_true),
            dif_neg hroom]
        refine ⟨h.waiting, h.now, event, ?_⟩
        simp only [step, ofTask, if_true, TimedRelay.relayStep, Relay.step, Relay.pathStep,
          EventPath.step, hsending, EventPath.sendEvent, hfull]

/-! ### The poller by itself -/

/-- What a poller that waits does by itself: it receives the signals there are,
sleeps until its deadline, and polls. -/
def pollerSteps (s : TimedRelay) : List Action :=
  List.replicate s.signals.length .signal ++ [.elapse (s.settledDeadline - s.relay.now), .poll]

/-- The step starts a poll, not later than `limit`. -/
def PollsBy (feeType : Fee) (limit : Nat) (s : TimedRelay) (a : Action) : Prop :=
  s.relay.now ≤ limit ∧ s.Polls feeType a

/-- The signals received one after the other. The induction is on them. -/
theorem run_signals (hwaiting : s.relay.poller = .waiting) :
    run (step feeType) s (List.replicate s.signals.length .signal)
      = { s with signals := [], nextDeadline := s.settledDeadline } := by
  obtain ⟨relay, connected, signals, nextDeadline⟩ := s
  induction signals generalizing nextDeadline with
  | nil => rfl
  | cons signal signals ih =>
      have hrelay : relay.poller = .waiting := hwaiting
      have hnext : step feeType ⟨relay, connected, signal :: signals, nextDeadline⟩ .signal
          = ⟨relay, connected, signals, computeNextPollDeadline relay.now nextDeadline signal
              pollInterval reconnectPollDelay⟩ := by
        simp only [step, hrelay]
      rw [List.length_cons, List.replicate_succ, run_cons, hnext]
      exact ih _ hwaiting

/-- **A poll that is due is made**: the poller's own steps lead to it, in time. -/
theorem Due.polls {limit : Nat} (h : s.Due limit) (hidle : s.relay.path.listener.held = []) :
    Earlier (step feeType) (PollsBy feeType limit) s s.pollerSteps := by
  obtain ⟨hwaiting, hnow, hdeadline⟩ := h
  let t : TimedRelay := { s with signals := [], nextDeadline := s.settledDeadline }
  refine ⟨List.replicate s.signals.length .signal ++ [.elapse (s.settledDeadline - s.relay.now)],
    .poll, [], by rw [pollerSteps, List.append_assoc]; rfl, ?_⟩
  rw [run_append, run_signals hwaiting, run_cons, run_nil]
  show PollsBy feeType limit (t.step feeType (.elapse (s.settledDeadline - s.relay.now))) .poll
  by_cases hmay : t.MayElapse (s.settledDeadline - s.relay.now)
  · -- the deadline was ahead, or is now
    have hover : s.settledDeadline ≤ s.relay.now + (s.settledDeadline - s.relay.now) := by omega
    have hbefore : s.relay.now + (s.settledDeadline - s.relay.now) ≤ limit := by omega
    obtain ⟨-, hnext⟩ := relayStep_of_waiting feeType (s := t) hwaiting
      (a := .elapse (s.settledDeadline - s.relay.now)) hwaiting
    rw [step, if_pos hmay]
    exact ⟨hbefore, polls_of_over hwaiting (hnext.trans_le hover)⟩
  · -- it is over
    have hover : s.settledDeadline ≤ s.relay.now := by
      by_contra hahead
      refine hmay ⟨fun _ => ⟨rfl, ?_⟩, fun hheld => absurd hidle hheld⟩
      show s.relay.now + (s.settledDeadline - s.relay.now) ≤ s.settledDeadline
      omega
    rw [step, if_neg hmay]
    exact ⟨hnow, polls_of_over hwaiting hover⟩

/-! ### Quiet steps -/

/-- The step makes no poll, and puts nothing into the executor's channel. -/
def Quiet (feeType : Fee) (s : TimedRelay) (a : Action) : Prop :=
  (s.step feeType a).relay.poller = s.relay.poller
    ∧ (s.step feeType a).relay.path.channel.items.length ≤ s.relay.path.channel.items.length

instance (s : TimedRelay) (a : Action) : Decidable (s.Quiet feeType a) :=
  inferInstanceAs (Decidable (_ ∧ _))

theorem Quiet.not_catchesUp {limit : Nat} {a : Action} (h : s.Quiet feeType a) :
    ¬ s.CatchesUp feeType limit a := by
  intro ⟨_, hcatch⟩
  cases hcatch with
  | inl hpolls =>
      obtain ⟨hwaiting, hfetching⟩ := hpolls
      rw [h.1, hwaiting] at hfetching
      cases hfetching
  | inr henqueues =>
      obtain ⟨event, hitems⟩ := henqueues
      have hlength := h.2
      rw [hitems, List.length_append, List.length_singleton] at hlength
      omega

end TimedRelay

open TimedRelay in
/-- **Caught up in time**: after a connection with the poller waiting, if every
log received is propagated until the first catch-up, then there has been one in
time, or there still is time: the poller's own steps lead to a poll before it is
over, and an event that waits in the send is enqueued once there is room. -/
theorem caught_up_in_time {feeType : Fee} {s : TimedRelay} {as : List TimedRelay.Action}
    (hconnect : s.CanConnect) (hwaiting : s.relay.poller = .waiting)
    (h : Until (step feeType) (Propagates (s.relay.now + reconnectPollDelay))
      (CatchesUp feeType (s.relay.now + reconnectPollDelay)) (s.step feeType .connect) as) :
    let limit := s.relay.now + reconnectPollDelay
    let s' := run (step feeType) (s.step feeType .connect) as
    Earlier (step feeType) (CatchesUp feeType limit) (s.step feeType .connect) as
      ∨ s'.relay.now ≤ limit
        ∧ (s'.relay.path.listener.held = [] →
            Earlier (step feeType) (PollsBy feeType limit) s' s'.pollerSteps)
        ∧ (s'.relay.path.listener.held ≠ [] → s'.Open →
            s'.Enqueues feeType (.task .sendAgain)) := by
  intro limit s'
  have hstep : ∀ (t : TimedRelay) a, t.Due limit ∨ t.Pending limit → t.Propagates limit a →
      t.CatchesUp feeType limit a ∨ (t.step feeType a).Due limit
        ∨ (t.step feeType a).Pending limit := by
    intro t a ht hpropagates
    cases ht with
    | inl hdue => exact due_step hdue hpropagates
    | inr hpending => exact (pending_step hpending hpropagates).imp_right .inr
  refine (earlier_or_invariant _ hstep (.inl (due_connect hconnect hwaiting)) h).imp_right ?_
  intro hreached
  cases hreached with
  | inl hdue => exact ⟨hdue.now, hdue.polls, enqueues_of_open⟩
  | inr hpending =>
      obtain ⟨event, hsending⟩ := hpending.sending
      refine ⟨hpending.now, fun hnone => ?_, enqueues_of_open⟩
      rw [hsending] at hnone
      cases hnone

/-! ## A root seen twice -/

/-- The root 5 arrives, and the connection is lost. -/
def firstConnection : List TimedRelay.Action :=
  [.connect, .log (some ⟨5⟩), .disconnect, .signal, .signal]

/-- After the second connection, the root 5 arrives again. -/
def repeatedLog : List TimedRelay.Action :=
  [.signal, .elapse (100 * 10 ^ 9), .log (some ⟨5⟩), .signal, .elapse (201 * 10 ^ 9)]

open TimedRelay in
/-- Five minutes after the second connection are over, and the log has put off
the poll it was to bring. -/
theorem cached_root_postpones :
    let s := run (step .default) (start 0) firstConnection
    s.CanConnect ∧ s.relay.poller = .waiting
      ∧ s.relay.now + reconnectPollDelay
          < (run (step .default) (s.step .default .connect) repeatedLog).relay.now
      ∧ ¬ Earlier (step .default) (CatchesUp .default (s.relay.now + reconnectPollDelay))
          (s.step .default .connect) repeatedLog := by
  refine ⟨by decide, by decide, by decide, ?_⟩
  apply not_earlier_of_along _ (P := Quiet .default) fun _ _ => Quiet.not_catchesUp
  refine ⟨?_, ?_, ?_, ?_, ?_, trivial⟩
  all_goals decide

open TimedRelay in
/-- After the first connection the poller by itself polls in time; and the root is
new, so that the event is a catch-up. -/
theorem caught_up_in_time_sample :
    Earlier (step .default) (PollsBy .default reconnectPollDelay)
        ((start 0).step .default .connect) [.signal, .elapse (300 * 10 ^ 9), .poll]
      ∧ Earlier (step .default) (CatchesUp .default (0 + reconnectPollDelay))
        ((start 0).step .default .connect) repeatedLog := by
  have hpropagates : Until (step .default) (Propagates (0 + reconnectPollDelay))
      (CatchesUp .default (0 + reconnectPollDelay)) ((start 0).step .default .connect)
      repeatedLog := by
    refine .inr ⟨trivial, .inr ⟨?_, .inr ⟨?_, .inr ⟨trivial, .inr ⟨?_, trivial⟩⟩⟩⟩⟩
    · exact fun hheld => absurd rfl hheld
    · exact fun _ => ⟨⟨5⟩, rfl, by decide, rfl⟩
    · exact fun hheld => absurd rfl hheld
  constructor
  · rcases @caught_up_in_time .default (start 0) [] (by decide) rfl trivial with
      hnone | ⟨-, hpolls, -⟩
    · exact absurd hnone (earlier_nil _ _ _)
    · exact hpolls rfl
  · exact (caught_up_in_time (s := start 0) (by decide) rfl hpropagates).resolve_right
      fun htime => absurd htime.1 (by decide)

end WorldIDBridge.Service
