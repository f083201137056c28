import WorldIDBridge.Service.Reconnection

/-!
# What the connection metrics tell

`Reconnection` takes an iteration of `listen_internal` for one step. Here an
iteration is taken apart: the connection with its fallback URL, the signal to
the poller, the subscription and the stream; and the metrics are recorded on
the way. The module says what they tell of the loop at every moment.
-/

namespace WorldIDBridge.Service

open TransitionRun

/-! ## The metrics -/

/-- The metrics of the connection. `status` is the gauge. -/
structure ConnectionMetrics where
  attempted : Nat
  successful : Nat
  failed : Nat
  status : Bool
  disconnects : Nat
  backoffRetries : Nat
  deriving DecidableEq, Repr

namespace ConnectionMetrics

def new : ConnectionMetrics := ⟨0, 0, 0, false, 0, 0⟩

variable (m : ConnectionMetrics)

@[simp] def recordWebsocketConnectionAttempt : ConnectionMetrics :=
  { m with attempted := m.attempted + 1 }

@[simp] def recordWebsocketConnectionSuccess : ConnectionMetrics :=
  { m with successful := m.successful + 1, status := true }

@[simp] def recordWebsocketConnectionFailure : ConnectionMetrics :=
  { m with failed := m.failed + 1, status := false }

@[simp] def setWebsocketConnected (connected : Bool) : ConnectionMetrics :=
  { m with status := connected }

@[simp] def recordWebsocketDisconnect : ConnectionMetrics :=
  { m with disconnects := m.disconnects + 1 }

@[simp] def recordWebsocketBackoffRetry : ConnectionMetrics :=
  { m with backoffRetries := m.backoffRetries + 1 }

end ConnectionMetrics

/-! ## The listener -/

/-- What the listener waits for. -/
inductive ListenPhase where
  /-- `Ws::connect` of the primary URL; of the fallback, after the error of the
  primary. -/
  | connecting (primaryErr : Option String)
  /-- `poll_tx.send(PollSignal::Expedite)`. -/
  | expediting
  | subscribing
  /-- The stream; how many logs it yielded. -/
  | reading (logs : Nat)
  | sleeping
  | returned
  deriving DecidableEq, Repr

namespace ListenPhase

/-- The connection stands. -/
@[simp] def stands : ListenPhase → Bool
  | expediting => true
  | subscribing => true
  | reading _ => true
  | _ => false

def isConnecting : ListenPhase → Bool
  | connecting _ => true
  | _ => false

/-- What an iteration has done to the loop when it comes to the phase. -/
@[simp] def ahead : ListenPhase → ListenLoop → ListenLoop
  | connecting _, l => { l with attempt := l.attempt + 1 }
  | expediting, l => { l with attempt := l.attempt + 1 }
  | subscribing, l => { l with attempt := l.attempt + 1, backoff := l.backoff.reset }
  | reading _, l => { l with attempt := l.attempt + 1, backoff := l.backoff.reset }
  | sleeping, l => l
  | returned, l => l

end ListenPhase

structure WsListener where
  loop : ListenLoop
  phase : ListenPhase
  metrics : ConnectionMetrics

namespace WsListener

inductive Action where
  | connected (outcome : Except String Unit)
  /-- The signal is sent, or the poller is gone. -/
  | signalled
  | subscribed (outcome : Except String Unit)
  /-- A log is dealt with. -/
  | log
  /-- The event of a log cannot be sent to the executor. -/
  | executorGone
  | streamEnded
  | woken

/-- The head of the loop. -/
def beginIteration (s : WsListener) : WsListener :=
  { loop := { s.loop with attempt := s.loop.attempt + 1 }
    phase := .connecting none
    metrics := s.metrics.recordWebsocketConnectionAttempt }

def start (config : ReconnectionConfig) : WsListener :=
  beginIteration ⟨.start config, .sleeping, ConnectionMetrics.new.setWebsocketConnected false⟩

/-- `connect_ws_provider` failed. -/
def connectFailed (config : ReconnectionConfig) (s : WsListener) (report : String) : WsListener :=
  let metrics := (s.metrics.recordWebsocketConnectionFailure.setWebsocketConnected
    false).recordWebsocketBackoffRetry
  if config.maxRetries > 0 ∧ s.loop.attempt > config.maxRetries then
    { loop := { s.loop with result := some (.error report) }, phase := .returned, metrics }
  else { loop := s.loop.sleepNext, phase := .sleeping, metrics }

/-- `subscribe_logs` failed. -/
def subscribeFailed (s : WsListener) : WsListener :=
  { loop := s.loop.sleepNext
    phase := .sleeping
    metrics := (s.metrics.recordWebsocketConnectionFailure.setWebsocketConnected
      false).recordWebsocketBackoffRetry }

/-- The stream is over. -/
def disconnected (s : WsListener) : WsListener :=
  { loop := s.loop.sleepNext
    phase := .sleeping
    metrics := (s.metrics.setWebsocketConnected
      false).recordWebsocketDisconnect.recordWebsocketBackoffRetry }

/-- One `await` is over. `fallback` says whether there is a second URL. -/
def step (config : ReconnectionConfig) (fallback : Bool) (s : WsListener) : Action → WsListener
  | .connected outcome =>
      match s.phase with
      | .connecting primaryErr =>
          match outcome with
          | .ok () =>
              { s with
                phase := .expediting
                metrics := s.metrics.recordWebsocketConnectionSuccess.setWebsocketConnected true }
          | .error err =>
              match primaryErr with
              | none => if fallback then { s with phase := .connecting (some err) }
                  else s.connectFailed config err
              | some primaryErr => s.connectFailed config
                  ("Primary WS failed: " ++ primaryErr ++ "; fallback WS failed: " ++ err)
      | _ => s
  | .signalled =>
      match s.phase with
      | .expediting =>
          { s with
            loop := { s.loop with backoff := s.loop.backoff.reset }
            phase := .subscribing }
      | _ => s
  | .subscribed outcome =>
      match s.phase with
      | .subscribing =>
          match outcome with
          | .ok () => { s with phase := .reading 0 }
          | .error _ => s.subscribeFailed
      | _ => s
  | .log =>
      match s.phase with
      | .reading logs => { s with phase := .reading (logs + 1) }
      | _ => s
  -- the listener returns from inside of the stream
  | .executorGone =>
      match s.phase with
      | .reading _ => { s with loop := { s.loop with result := some (.ok ()) }, phase := .returned }
      | _ => s
  | .streamEnded =>
      match s.phase with
      | .reading _ => s.disconnected
      | _ => s
  | .woken =>
      match s.phase with
      | .sleeping => s.beginIteration
      | _ => s

end WsListener

/-! ## Iterations -/

namespace Outcome

/-- The node took the connection and refused the subscription. -/
@[simp] def refused : Outcome → Bool
  | subscribeFailed => true
  | _ => false

@[simp] def ended : Outcome → Bool
  | streamEnded _ => true
  | _ => false

end Outcome

/-- The loop returned an error. -/
@[simp] def ListenLoop.gaveUp (l : ListenLoop) : Bool :=
  match l.result with
  | some (.error _) => true
  | _ => false

/-- The loop returned since the executor is gone. -/
@[simp] def ListenLoop.isDone (l : ListenLoop) : Bool :=
  match l.result with
  | some (.ok _) => true
  | _ => false

theorem ListenLoop.isDone_iff (l : ListenLoop) : l.isDone = true ↔ l.result = some (.ok ()) := by
  unfold ListenLoop.isDone
  split
  · rename_i u hresult
    exact iff_of_true rfl hresult
  · rename_i hother
    refine iff_of_false Bool.false_ne_true fun hresult => ?_
    exact hother () hresult

/-- The outcome of the iteration under way, if the answer ends it. -/
def WsListener.outcome? (fallback : Bool) (s : WsListener) : WsListener.Action → Option Outcome
  | .connected (.ok ()) => none
  | .connected (.error err) =>
      match s.phase with
      | .connecting none => if fallback then none else some (.connectFailed err)
      | .connecting (some primaryErr) => some (.connectFailed
          ("Primary WS failed: " ++ primaryErr ++ "; fallback WS failed: " ++ err))
      | _ => none
  | .signalled => none
  | .subscribed (.ok ()) => none
  | .subscribed (.error _) =>
      match s.phase with
      | .subscribing => some .subscribeFailed
      | _ => none
  | .log => none
  | .executorGone =>
      match s.phase with
      | .reading logs => some (.executorGone logs)
      | _ => none
  | .streamEnded =>
      match s.phase with
      | .reading logs => some (.streamEnded logs)
      | _ => none
  | .woken => none

/-- The outcomes of the iterations that are over. -/
def WsListener.outcomes (config : ReconnectionConfig) (fallback : Bool)
    (as : List WsListener.Action) : List Outcome :=
  outputs (WsListener.step config fallback) (WsListener.outcome? fallback)
    (WsListener.start config) as

/-- What the metrics tell: of the iterations that are over, of the phase of the
next one, and of the loop. -/
def tally (os : List Outcome) (phase : ListenPhase) (l : ListenLoop) : ConnectionMetrics where
  attempted := l.attempt
  successful := os.countP (fun o => !o.connectFails) + phase.stands.toNat
  failed := os.countP Outcome.connectFails + os.countP Outcome.refused
  status := phase.stands || l.isDone
  disconnects := os.countP Outcome.ended
  backoffRetries := l.slept.length + l.gaveUp.toNat

theorem loop_snoc (config : ReconnectionConfig) (os : List Outcome) (o : Outcome) :
    loop config (os ++ [o]) = (loop config os).iterate config o := run_snoc _ _ _ _

theorem attempt_iterate {config : ReconnectionConfig} {l : ListenLoop} (h : l.result = none)
    (o : Outcome) : (l.iterate config o).attempt = l.attempt + 1 := by
  simp only [ListenLoop.iterate, h]
  cases o with
  | connectFailed report =>
      simp only
      split <;> rfl
  | _ => rfl

namespace WsListener

variable {config : ReconnectionConfig} {os : List Outcome} {s : WsListener}

/-- **The invariant**: the iterations `os` are over. The loop is what they made of
it, and what the next one has done so far, and the metrics tell so. -/
structure Follows (config : ReconnectionConfig) (os : List Outcome) (s : WsListener) : Prop where
  loop : s.loop = s.phase.ahead (Service.loop config os)
  result : (Service.loop config os).result = none ↔ s.phase ≠ .returned
  attempt : (Service.loop config os).attempt = os.length
  metrics : s.metrics = tally os s.phase s.loop

theorem follows_start (config : ReconnectionConfig) : Follows config [] (start config) where
  loop := rfl
  result := by simp [Service.loop, ListenLoop.start, start, beginIteration]
  attempt := rfl
  metrics := rfl

theorem Follows.result_eq_none (h : Follows config os s) (hphase : s.phase ≠ .returned) :
    s.loop.result = none := by
  have hnone := h.result.mpr hphase
  rw [h.loop]
  cases hp : s.phase with
  | returned => exact absurd hp hphase
  | _ => exact hnone

/-- An iteration ends with `o`, and the listener sleeps or returns. -/
theorem Follows.finish (h : Follows config os s) (hhere : s.phase ≠ .returned) {o : Outcome}
    {l : ListenLoop} {phase : ListenPhase} {m : ConnectionMetrics}
    (hloop : Service.loop config (os ++ [o]) = l)
    (hphase : phase = if l.result.isNone then .sleeping else .returned)
    (hmetrics : m = tally (os ++ [o]) phase l) : Follows config (os ++ [o]) ⟨l, phase, m⟩ := by
  subst hphase
  have hattempt : (Service.loop config (os ++ [o])).attempt = (os ++ [o]).length := by
    rw [Service.loop_snoc, attempt_iterate (h.result.mpr hhere), h.attempt, List.length_append]
    rfl
  cases hresult : l.result with
  | none => exact ⟨hloop.symm, by simp [hloop, hresult], hattempt, by rw [hmetrics, hresult]⟩
  | some r => exact ⟨hloop.symm, by simp [hloop, hresult], hattempt, by rw [hmetrics, hresult]⟩

/-- What the iteration makes of the loop, from where the listener is in it. -/
theorem Follows.loop_snoc (h : Follows config os s) {phase : ListenPhase} (hphase : s.phase = phase)
    (hrunning : phase ≠ .returned) (o : Outcome) :
    ∃ before : ListenLoop, before.result = none ∧ s.loop = phase.ahead before
      ∧ Service.loop config (os ++ [o]) = before.iterate config o := by
  subst hphase
  exact ⟨_, h.result.mpr hrunning, h.loop, Service.loop_snoc config os o⟩

/-- A connection that failed ends its iteration. -/
theorem Follows.connectFailed (h : Follows config os s) {primaryErr : Option String}
    (hphase : s.phase = .connecting primaryErr) (report : String) :
    Follows config (os ++ [.connectFailed report]) (s.connectFailed config report) := by
  have hrunning := h.result_eq_none (by simp [hphase])
  have hnext : Service.loop config (os ++ [.connectFailed report])
      = if config.maxRetries > 0 ∧ s.loop.attempt > config.maxRetries then
          { s.loop with result := some (.error report) }
        else s.loop.sleepNext := by
    obtain ⟨⟨attempt, backoff, slept, result⟩, hresult, hloop, hnext⟩ :=
      h.loop_snoc hphase (by simp) (.connectFailed report)
    obtain rfl : result = none := hresult
    rw [hnext, hloop]
    rfl
  by_cases hgiven : config.maxRetries > 0 ∧ s.loop.attempt > config.maxRetries
  · rw [if_pos hgiven] at hnext
    rw [WsListener.connectFailed, if_pos hgiven]
    refine h.finish (by simp [hphase]) hnext rfl ?_
    rw [h.metrics, hphase]
    simp [tally, Outcome.connectFails, hrunning]
    omega
  · rw [if_neg hgiven] at hnext
    rw [WsListener.connectFailed, if_neg hgiven]
    refine h.finish (by simp [hphase]) hnext ?_ ?_
    · simp [ListenLoop.sleepNext, hrunning]
    · rw [h.metrics, hphase]
      simp [tally, Outcome.connectFails, ListenLoop.sleepNext, hrunning]
      omega

/-- A subscription that is refused was a connection, and counts as a failed one
too. -/
theorem Follows.subscribeFailed (h : Follows config os s) (hphase : s.phase = .subscribing) :
    Follows config (os ++ [.subscribeFailed]) s.subscribeFailed := by
  have hrunning := h.result_eq_none (by simp [hphase])
  obtain ⟨⟨attempt, backoff, slept, result⟩, hresult, hloop, hnext⟩ :=
    h.loop_snoc hphase (by simp) .subscribeFailed
  obtain rfl : result = none := hresult
  refine h.finish (by simp [hphase]) ?_ ?_ ?_
  · rw [hnext, hloop]
    rfl
  · simp [ListenLoop.sleepNext, hrunning]
  · rw [h.metrics, hphase]
    simp [tally, Outcome.connectFails, ListenLoop.sleepNext, hrunning]
    omega

theorem Follows.disconnected (h : Follows config os s) {logs : Nat}
    (hphase : s.phase = .reading logs) :
    Follows config (os ++ [.streamEnded logs]) s.disconnected := by
  have hrunning := h.result_eq_none (by simp [hphase])
  obtain ⟨⟨attempt, backoff, slept, result⟩, hresult, hloop, hnext⟩ :=
    h.loop_snoc hphase (by simp) (.streamEnded logs)
  obtain rfl : result = none := hresult
  refine h.finish (by simp [hphase]) ?_ ?_ ?_
  · rw [hnext, hloop]
    rfl
  · simp [ListenLoop.sleepNext, hrunning]
  · rw [h.metrics, hphase]
    simp [tally, Outcome.connectFails, ListenLoop.sleepNext, hrunning]

/-- A listener that returns from inside of the stream leaves the gauge as it is. -/
theorem Follows.executorGone (h : Follows config os s) {logs : Nat}
    (hphase : s.phase = .reading logs) :
    Follows config (os ++ [.executorGone logs])
      { s with loop := { s.loop with result := some (.ok ()) }, phase := .returned } := by
  have hrunning := h.result_eq_none (by simp [hphase])
  obtain ⟨⟨attempt, backoff, slept, result⟩, hresult, hloop, hnext⟩ :=
    h.loop_snoc hphase (by simp) (.executorGone logs)
  obtain rfl : result = none := hresult
  refine h.finish (by simp [hphase]) ?_ rfl ?_
  · rw [hnext, hloop]
    rfl
  · rw [h.metrics, hphase]
    simp [tally, Outcome.connectFails, hrunning]

/-- The next phase of an iteration. -/
theorem Follows.move (h : Follows config os s) {l : ListenLoop} {phase : ListenPhase}
    {m : ConnectionMetrics} (hhere : s.phase ≠ .returned) (hthere : phase ≠ .returned)
    (hloop : l = phase.ahead (Service.loop config os)) (hmetrics : m = tally os phase l) :
    Follows config os ⟨l, phase, m⟩ :=
  ⟨hloop, iff_of_true (h.result.mpr hhere) hthere, h.attempt, hmetrics⟩

/-- A phase that leaves the loop and the metrics alone. -/
theorem Follows.next (h : Follows config os s) {phase : ListenPhase} (hhere : s.phase ≠ .returned)
    (hthere : phase ≠ .returned) (hahead : s.phase.ahead = phase.ahead)
    (hstands : s.phase.stands = phase.stands) : Follows config os { s with phase } := by
  refine h.move hhere hthere ?_ ?_
  · rw [← hahead]
    exact h.loop
  · rw [h.metrics]
    simp only [tally, hstands]

/-- No outcome yet. -/
theorem Follows.goesOn (h : Follows config os s) :
    Follows config (os ++ (none : Option Outcome).toList) s := by
  rwa [Option.toList_none, List.append_nil]

/-- **One `await`**: the iteration goes on, or it ends with its outcome. -/
theorem Follows.step (h : Follows config os s) (fallback : Bool) (a : Action) :
    Follows config (os ++ (s.outcome? fallback a).toList) (s.step config fallback a) := by
  have hloop := h.loop
  have hmetrics := h.metrics
  cases a with
  | connected outcome =>
      cases outcome with
      | ok _ =>
          refine Follows.goesOn ?_
          simp only [WsListener.step]
          split
          · rename_i primaryErr hphase
            rw [hphase] at hloop hmetrics
            refine h.move (by simp [hphase]) (by simp) hloop ?_
            rw [hmetrics]
            simp [tally]
          · exact h
      | error err =>
          cases hphase : s.phase with
          | connecting primaryErr =>
              simp only [WsListener.step, outcome?, hphase]
              cases primaryErr with
              | none =>
                  cases fallback with
                  | true =>
                      -- on to the other URL
                      exact Follows.goesOn (h.next (by simp [hphase]) (by simp)
                        (by rw [hphase]; rfl) (by rw [hphase]; rfl))
                  | false => exact h.connectFailed hphase err
              | some primaryErr => exact h.connectFailed hphase _
          | _ =>
              simp only [WsListener.step, outcome?, hphase]
              exact h.goesOn
  | signalled =>
      refine Follows.goesOn ?_
      simp only [WsListener.step]
      split
      · rename_i hphase
        rw [hphase] at hloop hmetrics
        refine h.move (by simp [hphase]) (by simp) ?_ ?_
        · rw [hloop]
          rfl
        · rw [hmetrics]
          simp [tally]
      · exact h
  | subscribed outcome =>
      cases outcome with
      | ok _ =>
          refine Follows.goesOn ?_
          simp only [WsListener.step]
          split
          · rename_i hphase
            exact h.next (by simp [hphase]) (by simp) (by rw [hphase]; rfl) (by rw [hphase]; rfl)
          · exact h
      | error err =>
          cases hphase : s.phase with
          | subscribing =>
              simp only [WsListener.step, outcome?, hphase]
              exact h.subscribeFailed hphase
          | _ =>
              simp only [WsListener.step, outcome?, hphase]
              exact h.goesOn
  | log =>
      refine Follows.goesOn ?_
      simp only [WsListener.step]
      split
      · rename_i logs hphase
        exact h.next (by simp [hphase]) (by simp) (by rw [hphase]; rfl) (by rw [hphase]; rfl)
      · exact h
  | executorGone =>
      cases hphase : s.phase with
      | reading logs =>
          simp only [WsListener.step, outcome?, hphase]
          exact h.executorGone hphase
      | _ =>
          simp only [WsListener.step, outcome?, hphase]
          exact h.goesOn
  | streamEnded =>
      cases hphase : s.phase with
      | reading logs =>
          simp only [WsListener.step, outcome?, hphase]
          exact h.disconnected hphase
      | _ =>
          simp only [WsListener.step, outcome?, hphase]
          exact h.goesOn
  | woken =>
      refine Follows.goesOn ?_
      simp only [WsListener.step]
      split
      · rename_i hphase
        rw [hphase] at hloop hmetrics
        refine h.move (by simp [hphase]) (by simp) ?_ ?_
        · rw [hloop]
          rfl
        · rw [hmetrics]
          simp [tally]
      · exact h

theorem follows_run (config : ReconnectionConfig) (fallback : Bool) (as : List Action) :
    Follows config (outcomes config fallback as)
      (run (step config fallback) (start config) as) := by
  refine run_history_invariant (step config fallback) (P := fun _ _ => True)
    (I := fun as s => Follows config (outcomes config fallback as) s) (follows_start config) ?_
    (along_true _ _ as)
  intro as a h _
  rw [outcomes, outputs_snoc]
  exact h.step fallback a

/-- An iteration is counted as an attempt when it begins. -/
theorem Follows.attempted (h : Follows config os s) :
    s.loop.attempt = os.length + (s.phase.stands || s.phase.isConnecting).toNat := by
  rw [h.loop]
  cases s.phase <;> simp [ListenPhase.isConnecting, h.attempt]

/-- **What the connection metrics tell**, at every moment of every run, of the
outcomes that the answers of the run gave its iterations: the listener follows its
loop iteration by iteration; an iteration is an attempt, and but for the one under
way it is counted as a success if it came to a connection, and as a failure if it
did not or if the subscription was refused, which is counted as both; the
disconnects are the streams that ended; a delay is counted before it is slept, and
so is the end of the retries; and the gauge says that a connection stands exactly
when one stands, or the listener returned since the executor is gone. -/
theorem connection_told (config : ReconnectionConfig) (fallback : Bool) (as : List Action) :
    let s := run (step config fallback) (start config) as
    let os := outcomes config fallback as
    s.loop = s.phase.ahead (Service.loop config os)
      ∧ (s.phase = .returned ↔ (Service.loop config os).result ≠ none)
      ∧ s.metrics.attempted = s.loop.attempt
      ∧ s.metrics.successful = os.countP (fun o => !o.connectFails) + s.phase.stands.toNat
      ∧ s.metrics.failed = os.countP Outcome.connectFails + os.countP Outcome.refused
      ∧ s.metrics.successful + s.metrics.failed + (s.phase.isConnecting).toNat
        = s.metrics.attempted + os.countP Outcome.refused
      ∧ s.metrics.disconnects = os.countP Outcome.ended
      ∧ s.metrics.backoffRetries = s.loop.slept.length + s.loop.gaveUp.toNat
      ∧ (s.metrics.status = true
        ↔ s.phase.stands = true ∨ s.loop.result = some (.ok ())) := by
  intro s os
  have h : Follows config os s := follows_run config fallback as
  have hmetrics : s.metrics = tally os s.phase s.loop := h.metrics
  have hattempted : s.loop.attempt = os.length + (s.phase.stands || s.phase.isConnecting).toNat :=
    h.attempted
  rw [hmetrics]
  refine ⟨h.loop, ?_, rfl, rfl, rfl, ?_, rfl, rfl, ?_⟩
  · rw [ne_eq, h.result, not_not]
  · have hcount : os.length = os.countP Outcome.connectFails
        + os.countP fun o => !o.connectFails := by
      simpa using List.length_eq_countP_add_countP Outcome.connectFails
    have hphases : s.phase.stands.toNat + s.phase.isConnecting.toNat
        = (s.phase.stands || s.phase.isConnecting).toNat := by
      cases s.phase <;> rfl
    simp only [tally]
    omega
  · rw [← ListenLoop.isDone_iff]
    exact Bool.or_eq_true_iff

/-- The gauge of a listener that is gone. -/
example :
    let s := run (step .default false) (start .default)
      [.connected (.ok ()), .signalled, .subscribed (.ok ()), .log, .executorGone]
    s.phase = .returned ∧ s.metrics.status = true := by
  exact ⟨rfl, rfl⟩

end WsListener

end WorldIDBridge.Service
