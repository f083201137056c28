import WorldIDBridge.Lib.Outcome
import WorldIDBridge.Service.Relay
import WorldIDBridge.Service.Submitters

/-!
# The process

`start` spawns the listener, the executor, the poller and, with telemetry, the
balance monitor, and waits for all of them. `Relay` has the tasks with their
channel and their cache, and takes `propagate_root_with_retry` for one step;
`Submitters` has what happens inside of it, whoever calls it. The process is
both: a task that gets to a propagation makes the call, and the call's result
is what the task goes on with.

`try_join!` fails once a task panicked, and with it `start` and `main`; the
other tasks may go on until then. It never succeeds: `start` keeps a sender of
the poller's signals, so the poller does not return. The chain goes on without
the process. The receiver of an executor that panicked is left as it is until
then: the listener may go on filling the channel, where the real one would find
it closed.
-/

namespace WorldIDBridge.Service

open Prog TransitionRun

/-- `poll_balances`, up to the conversion to floating point: `wei_to_eth` and
`wei_to_gwei` take the `u128` of a word. A missing gas price is no error. -/
def pollBalances (balance gasPrice : Except String U256) :
    Except Failure (U128 × Option U128) := do
  let l1Balance ← balance.mapError Failure.error
  let l1Balance ← Utils.asU128 l1Balance
  match gasPrice with
  | .ok gasPrice => return (l1Balance, some (← Utils.asU128 gasPrice))
  | .error _ => return (l1Balance, none)

structure Process where
  relay : Relay
  submitters : Submitters
  /-- The balance monitor panicked. -/
  monitorPanicked : Bool
  exited : Bool

namespace Process

inductive Action where
  /-- Time passes, or a task goes on that is not in a propagation. -/
  | task (a : Relay.Action)
  /-- The pending request of a propagation is answered. -/
  | reply (t : Submitter) (x : Exchange Request Response)
  /-- The balance monitor got its answers. -/
  | balances (balance gasPrice : Except String U256)
  /-- `start` returns the error of a task that panicked, and the process ends. -/
  | exit
  /-- A block includes a transaction of the service. -/
  | mine (tx : Eip1559Transaction)
  /-- A block includes another transaction of the wallet. -/
  | mineOther

def executorValue : Executor → Option U256
  | .propagating _ value => some value
  | _ => none

def pollerValue : Poller → Option U256
  | .propagating _ value => some value
  | _ => none

/-- The value a task is in `propagate_root_with_retry` with. -/
def callValue (s : Relay) : Submitter → Option U256
  | .executor => executorValue s.path.executor
  | .poller => pollerValue s.poller

/-- The value a task makes a call with, between two states of the tasks. -/
def newCall (before after : Relay) (t : Submitter) : Option U256 :=
  if (callValue before t).isNone then callValue after t else none

/-- The calls that are made between two states of the tasks. -/
def callsMade (before after : Relay) : List Submitters.Action :=
  [Submitter.executor, .poller].filterMap fun t => (newCall before after t).map (.call t)

/-- A call of the task returns. -/
def returns : Submitter → Except StateBridgeError Unit → Relay.Action
  | .executor, r => .propagated r
  | .poller, r => .pollPropagated r

def isReturn : Relay.Action → Bool
  | .propagated _ => true
  | .pollPropagated _ => true
  | _ => false

/-- The call panicked. -/
def panicked : Option (Task (Except StateBridgeError Unit)) → Bool
  | some .panic => true
  | _ => false

/-- A task panicked. -/
def doomed (s : Process) : Bool :=
  s.monitorPanicked || s.relay.poller = .exited
    || panicked (s.submitters.calls .executor) || panicked (s.submitters.calls .poller)

def step (feeType : Fee) (config : Config) (s : Process) : Action → Process
  | .task a =>
      if s.exited || isReturn a then s
      else
        let relay := s.relay.step feeType a
        { s with
          relay
          submitters := run (Submitters.step config) s.submitters (callsMade s.relay relay) }
  | .reply t x =>
      if s.exited || s.submitters.Idle t then s
      else
        let submitters := s.submitters.step config (.reply t x)
        match submitters.calls t with
        | some (.ret r) => { s with relay := s.relay.step feeType (returns t r), submitters }
        | _ => { s with submitters }
  | .balances balance gasPrice =>
      if s.exited || s.monitorPanicked then s
      else
        match pollBalances balance gasPrice with
        | .error (.panic _) => { s with monitorPanicked := true }
        -- an error is logged
        | _ => s
  | .exit => if s.doomed then { s with exited := true } else s
  | .mine tx => { s with submitters := s.submitters.step config (.mine tx) }
  | .mineOther => { s with submitters := s.submitters.step config .mineOther }

def start (now count : Nat) : Process := ⟨.start now, .start count, false, false⟩

/-! ## The tasks and their calls -/

variable {feeType : Fee} {config : Config}

theorem attempted_handle (feeType : Fee) (s : EventPath) (event : TreeChanged) :
    (EventPath.handle feeType s event).attempted.map Prod.snd
      = s.attempted.map Prod.snd
        ++ (executorValue (EventPath.handle feeType s event).executor).toList := by
  cases feeType with
  | default => exact List.map_append
  | estimate => exact (List.append_nil _).symm
  | noFee => exact List.map_append

/-- A step of the event path that is no return: a propagation goes on, and a
new one is attempted with its value. -/
theorem path_task (s : EventPath) {b : EventPath.Action} (hb : ∀ r, b ≠ .propagated r) :
    (∀ value, executorValue s.executor = some value →
        executorValue (s.step feeType b).executor = some value
          ∧ (s.step feeType b).attempted = s.attempted)
      ∧ (executorValue s.executor = none → (s.step feeType b).attempted.map Prod.snd
        = s.attempted.map Prod.snd
          ++ (executorValue (s.step feeType b).executor).toList) := by
  have hsame : ∀ s' : EventPath, s'.executor = s.executor → s'.attempted = s.attempted →
      (∀ value, executorValue s.executor = some value →
          executorValue s'.executor = some value ∧ s'.attempted = s.attempted)
        ∧ (executorValue s.executor = none → s'.attempted.map Prod.snd
          = s.attempted.map Prod.snd ++ (executorValue s'.executor).toList) := by
    intro s' hexecutor hattempted
    rw [hexecutor, hattempted]
    refine ⟨fun value h => ⟨h, rfl⟩, fun h => ?_⟩
    rw [h]
    exact (List.append_nil _).symm
  obtain ⟨listener, channel, executor, offered, attempted⟩ := s
  cases b with
  | send event =>
      cases listener with
      | listening =>
          exact hsame _ (EventPath.executor_sendEvent ..) (EventPath.attempted_sendEvent ..)
      | _ => exact hsame _ rfl rfl
  | sendAgain =>
      cases listener with
      | sending event =>
          exact hsame _ (EventPath.executor_sendEvent ..) (EventPath.attempted_sendEvent ..)
      | _ => exact hsame _ rfl rfl
  | giveUp => cases listener <;> exact hsame _ rfl rfl
  | recv =>
      cases executor with
      | receiving =>
          refine ⟨?_, fun _ => ?_⟩
          · intro value h
            cases h
          · simp only [EventPath.step]
            split
            · exact attempted_handle feeType _ _
            · split <;> exact (List.append_nil _).symm
      | _ => exact hsame _ rfl rfl
  | estimated outcome =>
      cases executor with
      | estimating event root =>
          refine ⟨?_, fun _ => ?_⟩
          · intro value h
            cases h
          · cases outcome with
            | ok overallFee => exact List.map_append
            | error e => exact (List.append_nil _).symm
      | _ => cases outcome <;> exact hsame _ rfl rfl
  | propagated outcome => exact absurd rfl (hb outcome)

/-- Between its propagations a task of the relay leaves the event path to steps
that are no returns. -/
theorem path_of_task (s : Relay) {a : Relay.Action} (ha : isReturn a = false) :
    (s.step feeType a).path = s.path
      ∨ ∃ b, (∀ r, b ≠ .propagated r) ∧ (s.step feeType a).path = s.path.step feeType b := by
  cases a with
  | event event =>
      simp only [Relay.step]
      split
      · simp only [Relay.receive]
        split
        · exact .inl rfl
        · exact .inr ⟨.send event, by simp, rfl⟩
      · exact .inl rfl
  | sendAgain => exact .inr ⟨.sendAgain, by simp, rfl⟩
  | giveUp => exact .inr ⟨.giveUp, by simp, rfl⟩
  | recv => exact .inr ⟨.recv, by simp, rfl⟩
  | estimated outcome => exact .inr ⟨.estimated outcome, by simp, rfl⟩
  | propagated outcome => cases ha
  | elapse duration => exact .inl rfl
  | poll =>
      simp only [Relay.step]
      split <;> exact .inl rfl
  | fetched l1Root response =>
      simp only [Relay.step]
      split
      · split
        · exact .inl (Relay.path_getAndCompareRoots feeType s _ _)
        · exact .inl rfl
        · exact .inl rfl
      · exact .inl rfl
  | pollEstimated outcome =>
      simp only [Relay.step]
      split
      · cases outcome <;> exact .inl rfl
      · exact .inl rfl
  | pollPropagated outcome => cases ha

/-- A poller in a propagation stays there until the propagation returns. -/
theorem pollerValue_task (s : Relay) {a : Relay.Action} (ha : isReturn a = false) {value : U256}
    (h : pollerValue s.poller = some value) :
    pollerValue (s.step feeType a).poller = some value := by
  obtain ⟨path, cache, poller, now, succeeded⟩ := s
  cases poller with
  | propagating l1Root value' =>
      cases a with
      | event event =>
          rw [(Relay.frame_event feeType _ event).1]
          exact h
      | propagated outcome => cases ha
      | pollPropagated outcome => cases ha
      | _ => exact h
  | _ => cases h

/-- **Until it returns, a propagation goes on with its value**, and the values
attempted are those of the calls. -/
theorem callValue_task (feeType : Fee) (s : Relay) {a : Relay.Action} (ha : isReturn a = false) :
    (∀ t value, callValue s t = some value → callValue (s.step feeType a) t = some value)
      ∧ (s.step feeType a).path.attempted.map Prod.snd
        = s.path.attempted.map Prod.snd ++ (newCall s (s.step feeType a) .executor).toList := by
  have hpath : (∀ value, executorValue s.path.executor = some value →
        executorValue (s.step feeType a).path.executor = some value
          ∧ (s.step feeType a).path.attempted = s.path.attempted)
      ∧ (executorValue s.path.executor = none →
        (s.step feeType a).path.attempted.map Prod.snd = s.path.attempted.map Prod.snd
          ++ (executorValue (s.step feeType a).path.executor).toList) := by
    cases path_of_task s ha with
    | inl hsame =>
        rw [hsame]
        refine ⟨fun value h => ⟨h, rfl⟩, fun h => ?_⟩
        rw [h]
        exact (List.append_nil _).symm
    | inr h =>
        obtain ⟨b, hb, hnext⟩ := h
        rw [hnext]
        exact path_task s.path hb
  constructor
  · intro t value h
    cases t with
    | executor => exact (hpath.1 value h).1
    | poller => exact pollerValue_task s ha h
  · unfold newCall
    cases hvalue : callValue s .executor with
    | none => exact hpath.2 hvalue
    | some value =>
        rw [(hpath.1 value hvalue).2]
        exact (List.append_nil _).symm

/-- A return ends the propagation of its task, and nothing else. -/
theorem callValue_returns (feeType : Fee) (s : Relay) (t : Submitter)
    (r : Except StateBridgeError Unit) :
    callValue (s.step feeType (returns t r)) t = none
      ∧ (∀ t', t' ≠ t → callValue (s.step feeType (returns t r)) t' = callValue s t')
      ∧ (s.step feeType (returns t r)).path.attempted = s.path.attempted := by
  obtain ⟨path, cache, poller, now, succeeded⟩ := s
  cases t with
  | executor =>
      obtain ⟨listener, channel, executor, offered, attempted⟩ := path
      refine ⟨?_, ?_, ?_⟩
      · cases executor <;> cases r <;> rfl
      · intro t' ht
        cases t' with
        | executor => exact absurd rfl ht
        | poller => rfl
      · cases executor <;> cases r <;> rfl
  | poller =>
      refine ⟨?_, ?_, ?_⟩
      · cases poller <;> cases r <;> rfl
      · intro t' ht
        cases t' with
        | executor => cases poller <;> cases r <;> rfl
        | poller => exact absurd rfl ht
      · cases poller <;> cases r <;> rfl

/-! ### The calls -/

/-- Who makes the call of a value. -/
def callOf (t : Submitter) : Submitters.Action → Option U256
  | .call t' value => if t' = t then some value else none
  | _ => none

theorem filterMap_callsMade (before after : Relay) (t : Submitter) :
    (callsMade before after).filterMap (callOf t) = (newCall before after t).toList := by
  unfold callsMade
  cases hexecutor : newCall before after .executor <;>
    cases hpoller : newCall before after .poller <;>
    cases t <;> simp [hexecutor, hpoller, callOf]

/-- A new call of a task. -/
def startCall (config : Config) (s : Submitters) (t : Submitter) (value : U256) : Submitters :=
  { s with calls := Function.update s.calls t (some (propagateRootWithRetry config value)) }

theorem step_call {s : Submitters} {t : Submitter} (h : s.Idle t = true) (value : U256) :
    s.step config (.call t value) = startCall config s t value := if_pos h

theorem newCall_eq_some {before after : Relay} {t : Submitter} {value : U256}
    (h : newCall before after t = some value) :
    (callValue before t).isNone = true ∧ callValue after t = some value := by
  unfold newCall at h
  split at h
  · rename_i hnone
    exact ⟨hnone, h⟩
  · cases h

/-- The calls between two states are taken up: the tasks were in none. -/
theorem calls_callsMade (config : Config) {before : Relay} (after : Relay) {s : Submitters}
    (hidle : ∀ t, s.Idle t = (callValue before t).isNone) :
    let s' := run (Submitters.step config) s (callsMade before after)
    (∀ t, s'.calls t = match newCall before after t with
        | some value => some (propagateRootWithRetry config value)
        | none => s.calls t)
      ∧ s'.broadcast = s.broadcast := by
  have hfree : ∀ t value, newCall before after t = some value → s.Idle t = true := by
    intro t value h
    rw [hidle, (newCall_eq_some h).1]
  unfold callsMade
  cases hexecutor : newCall before after .executor with
  | none =>
      cases hpoller : newCall before after .poller with
      | none =>
          simp only [List.filterMap_cons, hexecutor, hpoller, Option.map_none, List.filterMap_nil,
            run_nil]
          refine ⟨fun t => ?_, trivial⟩
          cases t <;> simp [hexecutor, hpoller]
      | some value =>
          simp only [List.filterMap_cons, hexecutor, hpoller, Option.map_none, Option.map_some,
            List.filterMap_nil, run_cons, run_nil, step_call (hfree .poller value hpoller)]
          refine ⟨fun t => ?_, rfl⟩
          cases t <;> simp [hexecutor, hpoller, startCall]
  | some value =>
      have hfirst := hfree .executor value hexecutor
      cases hpoller : newCall before after .poller with
      | none =>
          simp only [List.filterMap_cons, hexecutor, hpoller, Option.map_none, Option.map_some,
            List.filterMap_nil, run_cons, run_nil, step_call hfirst]
          refine ⟨fun t => ?_, rfl⟩
          cases t <;> simp [hexecutor, hpoller, startCall]
      | some value' =>
          have hsecond : (startCall config s .executor value).Idle .poller = true := by
            have hpollerIdle := hfree .poller value' hpoller
            simpa [Submitters.Idle, startCall] using hpollerIdle
          simp only [List.filterMap_cons, hexecutor, hpoller, Option.map_some,
            List.filterMap_nil, run_cons, run_nil, step_call hfirst, step_call hsecond]
          refine ⟨fun t => ?_, rfl⟩
          cases t <;> simp [hexecutor, hpoller, startCall]

/-! ## Steps of the process -/

/-- The account after an answer to a task. -/
def answer (s : Submitters) (t : Submitter) (prog : Task (Except StateBridgeError Unit))
    (x : Exchange Request Response) : Submitters :=
  { s with
    calls := Function.update s.calls t (some prog)
    broadcast := sentIn x ++ s.broadcast }

/-- The tasks after an answer: what is left of the call, if it does not return. -/
def goOn (feeType : Fee) (s : Relay) (t : Submitter) :
    Task (Except StateBridgeError Unit) → Relay
  | .ret r => s.step feeType (returns t r)
  | _ => s

/-- An answer that is taken. -/
structure Answered (config : Config) (s : Process) (t : Submitter)
    (x : Exchange Request Response) (prog prog' : Task (Except StateBridgeError Unit)) : Prop where
  call : s.submitters.calls t = some prog
  reply : prog.reply? x = some prog'
  latest : isLatest config.walletAddress s.submitters.count x = true

theorem Answered.step {s : Process} {t : Submitter} {x : Exchange Request Response}
    {prog prog' : Task (Except StateBridgeError Unit)} (h : Answered config s t x prog prog') :
    s.submitters.Idle t = false
      ∧ s.submitters.step config (.reply t x) = answer s.submitters t prog' x := by
  constructor
  · obtain ⟨k, rfl, -⟩ := reply?_eq_some h.reply
    unfold Submitters.Idle
    rw [h.call]
  · simp only [Submitters.step, h.call, h.reply, h.latest, if_true]
    rfl

theorem reply_refused {s : Process} {t : Submitter} {x : Exchange Request Response}
    (h : ¬ ∃ prog prog', Answered config s t x prog prog') :
    s.submitters.step config (.reply t x) = s.submitters := by
  simp only [Submitters.step]
  split
  · rename_i prog hcall
    split
    · rename_i prog' hreply
      split
      · rename_i hlatest
        exact absurd ⟨prog, prog', hcall, hreply, hlatest⟩ h
      · rfl
    · rfl
  · rfl

/-- An answer that is taken: the task goes on with what the call returns. -/
theorem step_answered {s : Process} {t : Submitter} {x : Exchange Request Response}
    {prog prog' : Task (Except StateBridgeError Unit)} (hlive : s.exited = false)
    (h : Answered config s t x prog prog') :
    s.step feeType config (.reply t x) = { s with
      relay := goOn feeType s.relay t prog'
      submitters := answer s.submitters t prog' x } := by
  obtain ⟨hbusy, hstep⟩ := h.step
  have hgoes : ¬ (s.exited || s.submitters.Idle t) = true := by simp [hlive, hbusy]
  have hcall : (answer s.submitters t prog' x).calls t = some prog' := Function.update_self ..
  rw [step, if_neg hgoes, hstep]
  simp only [hcall]
  cases prog' <;> rfl

/-- An answer that is not taken. -/
theorem step_refused {s : Process} {t : Submitter} {x : Exchange Request Response}
    (h : ¬ ∃ prog prog', Answered config s t x prog prog') :
    s.step feeType config (.reply t x) = s := by
  have hsame := reply_refused h
  rw [step, hsame]
  by_cases hstop : (s.exited || s.submitters.Idle t) = true
  · exact if_pos hstop
  · rw [if_neg hstop]
    dsimp only
    split
    · rename_i r hcall
      -- a call that returned is idle
      have hidle : s.submitters.Idle t = true := by
        unfold Submitters.Idle
        rw [hcall]
      exact absurd (by rw [hidle, Bool.or_true]) hstop
    · rfl

/-- What one step does: nothing, a step of a task with the calls it makes, an
answer to a call, a panic of the monitor, the end, or an inclusion. -/
theorem step_cases (feeType : Fee) (config : Config) (s : Process) (a : Action) :
    s.step feeType config a = s
      ∨ (∃ b, a = .task b ∧ isReturn b = false
          ∧ s.step feeType config a = { s with
              relay := s.relay.step feeType b
              submitters := run (Submitters.step config) s.submitters
                (callsMade s.relay (s.relay.step feeType b)) })
      ∨ (∃ t x prog prog', a = .reply t x ∧ Answered config s t x prog prog'
          ∧ s.step feeType config a = { s with
              relay := goOn feeType s.relay t prog'
              submitters := answer s.submitters t prog' x })
      ∨ (∃ balance gasPrice m, a = .balances balance gasPrice
          ∧ pollBalances balance gasPrice = .error (.panic m)
          ∧ s.step feeType config a = { s with monitorPanicked := true })
      ∨ (a = .exit ∧ s.doomed = true ∧ s.step feeType config a = { s with exited := true })
      ∨ (∃ b count included, (∀ t, callOf t b = none)
          ∧ (∀ t x, a ≠ .reply t x) ∧ (∀ b, a ≠ .task b) ∧ (∀ b g, a ≠ .balances b g)
          ∧ s.submitters.step config b = { s.submitters with count, included }
          ∧ s.step feeType config a = { s with submitters := s.submitters.step config b }) := by
  cases a with
  | task b =>
      by_cases h : (s.exited || isReturn b) = true
      · exact .inl (if_pos h)
      · have hreturn : isReturn b = false := by
          cases hb : isReturn b with
          | false => rfl
          | true => exact absurd (by rw [hb, Bool.or_true]) h
        exact .inr (.inl ⟨b, rfl, hreturn, if_neg h⟩)
  | reply t x =>
      by_cases hexited : s.exited = true
      · exact .inl (if_pos (by rw [hexited, Bool.true_or]))
      · by_cases htaken : ∃ prog prog', Answered config s t x prog prog'
        · obtain ⟨prog, prog', hanswered⟩ := htaken
          have hlive : s.exited = false := Bool.eq_false_iff.mpr hexited
          exact .inr (.inr (.inl ⟨t, x, prog, prog', rfl, hanswered,
            step_answered hlive hanswered⟩))
        · exact .inl (step_refused htaken)
  | balances balance gasPrice =>
      by_cases h : (s.exited || s.monitorPanicked) = true
      · exact .inl (if_pos h)
      · rw [step, if_neg h]
        split
        · rename_i m hpanic
          exact .inr (.inr (.inr (.inl ⟨balance, gasPrice, m, rfl, hpanic, rfl⟩)))
        · exact .inl rfl
  | exit =>
      by_cases h : s.doomed = true
      · exact .inr (.inr (.inr (.inr (.inl ⟨rfl, h, if_pos h⟩))))
      · exact .inl (if_neg h)
  | mine tx =>
      by_cases h : tx ∈ s.submitters.broadcast ∧ tx.nonce.toNat = s.submitters.count
      · exact .inr (.inr (.inr (.inr (.inr ⟨.mine tx, _, _, fun _ => rfl, by simp, by simp, by simp,
          if_pos h, rfl⟩))))
      · refine .inl ?_
        have hsame : s.submitters.step config (.mine tx) = s.submitters := if_neg h
        rw [step, hsame]
  | mineOther =>
      exact .inr (.inr (.inr (.inr (.inr ⟨.mineOther, _, _, fun _ => rfl, by simp, by simp, by simp,
        rfl, rfl⟩))))

/-! ## Tasks and calls in step -/

/-- **A task is in a propagation exactly as long as its call runs**: what is
left of the call is what `propagate_root_with_retry`, called with the task's
value, is after the answers it got. -/
structure InStep (config : Config) (s : Process) : Prop where
  call : ∀ t value, callValue s.relay t = some value →
    ∃ tr prog, s.submitters.calls t = some prog
      ∧ Performs (propagateRootWithRetry config value) tr prog ∧ ∀ r, prog ≠ .ret r
  idle : ∀ t, callValue s.relay t = none → s.submitters.Idle t = true

variable {s : Process}

theorem inStep_start (now count : Nat) : InStep config (start now count) where
  call := by
    intro t value h
    cases t <;> cases h
  idle _ _ := rfl

theorem InStep.idle_iff (h : InStep config s) (t : Submitter) :
    s.submitters.Idle t = (callValue s.relay t).isNone := by
  cases hvalue : callValue s.relay t with
  | none => exact h.idle t hvalue
  | some value =>
      obtain ⟨tr, prog, hcall, -, hret⟩ := h.call t value hvalue
      unfold Submitters.Idle
      rw [hcall]
      cases prog with
      | ret r => exact absurd rfl (hret r)
      | _ => rfl

/-- An answer that is taken is one to a propagation. -/
theorem InStep.answered (h : InStep config s) {t : Submitter} {x : Exchange Request Response}
    {prog prog' : Task (Except StateBridgeError Unit)}
    (hanswered : Answered config s t x prog prog') :
    ∃ value tr, callValue s.relay t = some value
      ∧ Performs (propagateRootWithRetry config value) tr prog := by
  have hbusy := hanswered.step.1
  rw [h.idle_iff] at hbusy
  cases hvalue : callValue s.relay t with
  | none =>
      rw [hvalue] at hbusy
      cases hbusy
  | some value =>
      obtain ⟨tr, prog₀, hcall, hrun, -⟩ := h.call t value hvalue
      obtain rfl : prog₀ = prog := Option.some.inj (hcall.symm.trans hanswered.call)
      exact ⟨value, tr, rfl, hrun⟩

/-- What is in step is told by the calls alone. -/
theorem InStep.of_calls {s' : Process} (h : InStep config s) (hrelay : s'.relay = s.relay)
    (hcalls : s'.submitters.calls = s.submitters.calls) : InStep config s' where
  call := by
    rw [hrelay, hcalls]
    exact h.call
  idle := by
    intro t ht
    rw [hrelay] at ht
    have hidle := h.idle t ht
    unfold Submitters.Idle at hidle ⊢
    rwa [hcalls]

/-- A step of a task, with the calls it makes. -/
theorem InStep.task (h : InStep config s) {b : Relay.Action} (hb : isReturn b = false) :
    InStep config { s with
      relay := s.relay.step feeType b
      submitters := run (Submitters.step config) s.submitters
        (callsMade s.relay (s.relay.step feeType b)) } := by
  obtain ⟨hcalls, -⟩ := calls_callsMade config (s.relay.step feeType b) h.idle_iff
  obtain ⟨hstay, -⟩ := callValue_task feeType s.relay hb
  constructor
  · intro t value hvalue
    have hcall := hcalls t
    cases hnew : newCall s.relay (s.relay.step feeType b) t with
    | some value' =>
        rw [hnew] at hcall
        obtain rfl : value' = value := Option.some.inj ((newCall_eq_some hnew).2.symm.trans hvalue)
        refine ⟨[], _, hcall, .done _, ?_⟩
        intro r hr
        cases hr
    | none =>
        rw [hnew] at hcall
        -- the task was in the propagation before
        cases hbefore : callValue s.relay t with
        | none =>
            rw [newCall, hbefore] at hnew
            rw [show callValue (s.relay.step feeType b) t = none from hnew] at hvalue
            cases hvalue
        | some value' =>
            obtain rfl := Option.some.inj ((hstay t value' hbefore).symm.trans hvalue)
            obtain ⟨tr, prog, hprog, hrun⟩ := h.call t value' hbefore
            exact ⟨tr, prog, hcall.trans hprog, hrun⟩
  · intro t hvalue
    have hbefore : callValue s.relay t = none := by
      cases hbefore : callValue s.relay t with
      | none => rfl
      | some value => exact absurd ((hstay t value hbefore).symm.trans hvalue) (by simp)
    have hnew : newCall s.relay (s.relay.step feeType b) t = none := by
      rw [newCall, hbefore]
      exact hvalue
    have hcall := hcalls t
    rw [hnew] at hcall
    have hidle := h.idle t hbefore
    unfold Submitters.Idle at hidle ⊢
    rw [hcall]
    exact hidle

/-- An answer to a call. -/
theorem InStep.reply (h : InStep config s) {t : Submitter} {x : Exchange Request Response}
    {prog prog' : Task (Except StateBridgeError Unit)}
    (hanswered : Answered config s t x prog prog') :
    InStep config { s with
      relay := goOn feeType s.relay t prog'
      submitters := answer s.submitters t prog' x } := by
  have hself : (answer s.submitters t prog' x).calls t = some prog' := Function.update_self ..
  have hother : ∀ t', t' ≠ t → (answer s.submitters t prog' x).calls t' = s.submitters.calls t' :=
    fun t' ht => Function.update_of_ne ht ..
  obtain ⟨value, tr, hvalue, hrun⟩ := h.answered hanswered
  have hnext := hrun.snoc hanswered.reply
  by_cases hret : ∃ r, prog' = .ret r
  · obtain ⟨r, rfl⟩ := hret
    obtain ⟨hnone, hothers, -⟩ := callValue_returns feeType s.relay t r
    constructor
    · intro t' value' hvalue'
      have ht : t' ≠ t := by
        intro heq
        subst heq
        rw [show callValue (goOn feeType s.relay t' (.ret r)) t' = none from hnone] at hvalue'
        cases hvalue'
      rw [show callValue (goOn feeType s.relay t (.ret r)) t' = _ from hothers t' ht] at hvalue'
      obtain ⟨tr', prog₁, hcall', hrun'⟩ := h.call t' value' hvalue'
      exact ⟨tr', prog₁, (hother t' ht).trans hcall', hrun'⟩
    · intro t' hvalue'
      unfold Submitters.Idle
      by_cases ht : t' = t
      · rw [ht, hself]
      · rw [hother t' ht]
        rw [show callValue (goOn feeType s.relay t (.ret r)) t' = _ from hothers t' ht] at hvalue'
        exact h.idle t' hvalue'
  · have hgoOn : goOn feeType s.relay t prog' = s.relay := by
      cases prog' with
      | ret r => exact absurd ⟨r, rfl⟩ hret
      | _ => rfl
    rw [hgoOn]
    constructor
    · intro t' value' hvalue'
      by_cases ht : t' = t
      · subst ht
        obtain rfl : value = value' := Option.some.inj (hvalue.symm.trans hvalue')
        exact ⟨tr ++ [x], prog', hself, hnext, fun r hr => hret ⟨r, hr⟩⟩
      · obtain ⟨tr', prog₁, hcall', hrun'⟩ := h.call t' value' hvalue'
        exact ⟨tr', prog₁, (hother t' ht).trans hcall', hrun'⟩
    · intro t' hvalue'
      have ht : t' ≠ t := by
        intro heq
        subst heq
        rw [hvalue] at hvalue'
        cases hvalue'
      have hidle := h.idle t' hvalue'
      unfold Submitters.Idle at hidle ⊢
      rwa [hother t' ht]

theorem InStep.step (h : InStep config s) (a : Action) :
    InStep config (s.step feeType config a) := by
  rcases step_cases feeType config s a with heq | ⟨b, -, hb, heq⟩
      | ⟨t, x, prog, prog', -, hanswered, heq⟩ | ⟨_, _, _, -, -, heq⟩ | ⟨-, -, heq⟩
      | ⟨b, count, included, -, -, -, -, hsub, heq⟩ <;> rw [heq]
  · exact h
  · exact h.task hb
  · exact h.reply hanswered
  · exact h.of_calls rfl rfl
  · exact h.of_calls rfl rfl
  · exact h.of_calls rfl (by rw [hsub])

theorem inStep_run (feeType : Fee) (config : Config) (now count : Nat) (as : List Action) :
    InStep config (run (step feeType config) (start now count) as) :=
  run_invariant (step feeType config) (P := fun _ _ => True) (fun _ a h _ => h.step a)
    (inStep_start now count) (along_true _ _ as)

/-! ## The two views -/

/-- The tasks make a run of the relay, and their calls and the account a run of
the submitters, in which the executor calls with the values it attempts, in
order. -/
def Views (feeType : Fee) (config : Config) (now count : Nat) (s : Process) : Prop :=
  ∃ rs ss, s.relay = run (Relay.step feeType) (.start now) rs
    ∧ s.submitters = run (Submitters.step config) (.start count) ss
    ∧ ss.filterMap (callOf .executor) = s.relay.path.attempted.map Prod.snd

theorem Views.step {now count : Nat} (h : Views feeType config now count s) (a : Action) :
    Views feeType config now count (s.step feeType config a) := by
  obtain ⟨rs, ss, hrelay, hsub, hvalues⟩ := h
  rcases step_cases feeType config s a with heq | ⟨b, -, hb, heq⟩
      | ⟨t, x, prog, prog', -, hanswered, heq⟩ | ⟨_, _, _, -, -, heq⟩ | ⟨-, -, heq⟩
      | ⟨b, count, included, hcall, -, -, -, -, heq⟩ <;> rw [heq]
  · exact ⟨rs, ss, hrelay, hsub, hvalues⟩
  · refine ⟨rs ++ [b], ss ++ callsMade s.relay (s.relay.step feeType b), ?_, ?_, ?_⟩
    · rw [run_snoc, ← hrelay]
    · rw [run_append, ← hsub]
    · rw [List.filterMap_append, hvalues, filterMap_callsMade,
        (callValue_task feeType s.relay hb).2]
  · have hnext : answer s.submitters t prog' x
        = run (Submitters.step config) (.start count) (ss ++ [.reply t x]) := by
      rw [run_snoc, ← hsub, hanswered.step.2]
    have hcalls : (ss ++ [Submitters.Action.reply t x]).filterMap (callOf .executor)
        = ss.filterMap (callOf .executor) := by
      rw [List.filterMap_append]
      exact List.append_nil _
    by_cases hret : ∃ r, prog' = .ret r
    · obtain ⟨r, rfl⟩ := hret
      refine ⟨rs ++ [returns t r], _, ?_, hnext, ?_⟩
      · rw [run_snoc, ← hrelay]
        rfl
      · rw [hcalls, hvalues]
        exact congrArg _ (callValue_returns feeType s.relay t r).2.2.symm
    · have hgoOn : goOn feeType s.relay t prog' = s.relay := by
        cases prog' with
        | ret r => exact absurd ⟨r, rfl⟩ hret
        | _ => rfl
      refine ⟨rs, _, hgoOn.trans hrelay, hnext, ?_⟩
      rw [hcalls, hvalues, hgoOn]
  · exact ⟨rs, ss, hrelay, hsub, hvalues⟩
  · exact ⟨rs, ss, hrelay, hsub, hvalues⟩
  · refine ⟨rs, ss ++ [b], hrelay, ?_, ?_⟩
    · rw [run_snoc, ← hsub]
    · rw [List.filterMap_append, hvalues]
      simp [hcall]

theorem views_run (feeType : Fee) (config : Config) (now count : Nat) (as : List Action) :
    Views feeType config now count (run (step feeType config) (start now count) as) :=
  run_invariant (step feeType config) (P := fun _ _ => True) (fun _ a h _ => h.step a)
    ⟨[], [], rfl, rfl, rfl⟩ (along_true _ _ as)

/-- **The process refines both its views**: in every run, through panics and
the end, its tasks make a run of the relay and their calls a run of the
submitters, the executor calls with the values it attempts, and a task is in a
propagation exactly as long as what is left of its call does not return. -/
theorem process_refines (feeType : Fee) (config : Config) (now count : Nat) (as : List Action) :
    let s := run (step feeType config) (start now count) as
    (∃ rs ss, s.relay = run (Relay.step feeType) (.start now) rs
        ∧ s.submitters = run (Submitters.step config) (.start count) ss
        ∧ ss.filterMap (callOf .executor) = s.relay.path.attempted.map Prod.snd)
      ∧ ∀ t, match callValue s.relay t with
        | some value => ∃ tr prog, s.submitters.calls t = some prog
            ∧ Performs (propagateRootWithRetry config value) tr prog ∧ ∀ r, prog ≠ .ret r
        | none => s.submitters.Idle t = true := by
  have hinStep := inStep_run feeType config now count as
  refine ⟨views_run feeType config now count as, fun t => ?_⟩
  cases hvalue : callValue (run (step feeType config) (start now count) as).relay t with
  | some value => exact hinStep.call t value hvalue
  | none => exact hinStep.idle t hvalue

end Process

end WorldIDBridge.Service
