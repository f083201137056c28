import WorldIDBridge.Service.Spending
import WorldIDBridge.Service.Supervision

/-!
# What the process has left to do

An event or a poll gives the tasks a number of steps to do: the event is sent,
received and estimated, the poll fetches and estimates, and either ends in a call
with a bounded number of requests. Nothing else keeps the tasks busy, and none
waits for another that waits: with the channel full the executor has something to
do, and `propagate_root_with_retry` takes no lock. The signals to the poller come
on top of it in the next module.
-/

namespace WorldIDBridge.Service

open Prog TransitionRun

/-- The requests of one call of `propagate_root_with_retry`, at most. -/
def callRequests : Nat := 23

theorem propagateRootWithRetry_within (config : Config) (value : U256) :
    Within callRequests (propagateRootWithRetry config value) :=
  retryLoop_within config value retryDelays

/-! ## What is ahead -/

/-- The steps to the executor's return, at most, if nothing is queued. -/
def Executor.ahead : Executor → Nat
  | receiving => 1
  | estimating _ _ => callRequests + 2
  | propagating _ _ => callRequests + 1
  | exited _ => 0

/-- The steps to the end of the poll, at most. -/
def Poller.ahead : Poller → Nat
  | fetching => callRequests + 2
  | estimating _ _ => callRequests + 1
  | propagating _ _ => callRequests
  | _ => 0

/-- The steps of an event, from its `tx.send` on, at most. -/
def eventSteps : Nat := callRequests + 3

namespace EventPath

/-- The steps ahead of the executor and of a listener that waits. -/
def ahead (s : EventPath) : Nat :=
  eventSteps * s.listener.held.length + (eventSteps - 1) * s.channel.items.length
    + s.executor.ahead

/-- The steps the tasks take by themselves; the others are the listener's, with
what L1 sends. -/
def goesOn : Action → Bool
  | .sendAgain => true
  | .recv => true
  | .estimated _ => true
  | _ => false

variable {feeType : Fee} {s : EventPath}

/-- What is handed over is ahead of the executor, or the receiver is gone. -/
theorem ahead_sendEvent (s : EventPath) (event : TreeChanged) :
    (s.sendEvent event = { s with listener := .sending event })
      ∨ (s.sendEvent event).ahead + 1
        ≤ eventSteps + (eventSteps - 1) * s.channel.items.length + s.executor.ahead := by
  unfold sendEvent
  split
  · rename_i hsend
    right
    simp only [ahead, Mpsc.items_of_sent hsend, Listener.held_listening, List.length_append,
      List.length_singleton, List.length_nil, eventSteps, callRequests]
    omega
  · exact .inl rfl
  · right
    simp only [ahead, Listener.held_exited, List.length_nil, Mpsc.items_dropSender, eventSteps,
      callRequests]
    omega

theorem ahead_handle (feeType : Fee) (s : EventPath) (event : TreeChanged) :
    (handle feeType s event).ahead
      ≤ eventSteps * s.listener.held.length + (eventSteps - 1) * s.channel.items.length
        + (callRequests + 2) := by
  cases feeType <;> simp [handle, attempt, ahead, Executor.ahead]

theorem ahead_exit (s : EventPath) (result : Except ExecutorError Unit) :
    (s.exit result).ahead = eventSteps * s.listener.held.length := rfl

/-- **A step of a task that goes on** is one less ahead of it, or changes
nothing. -/
theorem ahead_goesOn (feeType : Fee) (s : EventPath) {a : Action} (ha : goesOn a = true) :
    s.step feeType a = s ∨ (s.step feeType a).ahead + 1 ≤ s.ahead := by
  obtain ⟨listener, channel, executor, offered, attempted⟩ := s
  cases a with
  | sendAgain =>
      cases listener with
      | sending event =>
          refine (ahead_sendEvent _ event).imp_right fun hle => Nat.le_trans hle ?_
          simp [ahead]
      | _ => exact .inl rfl
  | recv =>
      cases executor with
      | receiving =>
          simp only [step]
          split
          · rename_i event channel' hrecv
            right
            have hle := ahead_handle feeType ⟨listener, channel', .receiving, offered, attempted⟩
              event
            simp only [ahead, Mpsc.items_of_recv? hrecv, List.length_cons, Executor.ahead,
              eventSteps, callRequests] at hle ⊢
            omega
          · split
            · right
              rw [ahead_exit]
              simp only [ahead, Executor.ahead]
              omega
            · exact .inl rfl
      | _ => exact .inl rfl
  | estimated outcome =>
      cases executor with
      | estimating event root =>
          right
          cases outcome with
          | ok overallFee =>
              simp only [step, attempt, ahead, Executor.ahead]
              omega
          | error e =>
              simp only [step, ahead_exit]
              simp only [ahead, Executor.ahead]
              omega
      | _ => cases outcome <;> exact .inl rfl
  | _ => cases ha

/-- A new event is that much more. -/
theorem ahead_send (feeType : Fee) (s : EventPath) (event : TreeChanged) :
    (s.step feeType (.send event)).ahead
      ≤ s.ahead + eventSteps * (s.offers (.send event)).length := by
  obtain ⟨listener, channel, executor, offered, attempted⟩ := s
  cases listener with
  | listening =>
      simp only [step]
      rcases ahead_sendEvent ⟨.listening, channel, executor, offered ++ [event], attempted⟩ event
        with hfull | hle
      · rw [hfull]
        simp [ahead, offers]
        omega
      · simp [ahead, offers] at hle ⊢
        omega
  | _ => exact Nat.le_add_right _ _

/-- The end of a propagation takes the whole call off. -/
theorem ahead_propagated (feeType : Fee) (s : EventPath) {event : TreeChanged} {value : U256}
    (h : s.executor = .propagating event value) (r : Except StateBridgeError Unit) :
    (s.step feeType (.propagated r)).ahead + callRequests ≤ s.ahead := by
  cases r with
  | ok _ =>
      simp only [step, h, ahead, Executor.ahead]
      omega
  | error e =>
      simp only [step, h, ahead_exit]
      simp only [ahead, h, Executor.ahead]
      omega

theorem ahead_le (s : EventPath) : s.ahead ≤ eventSteps * s.inFlight.length + 1 := by
  have hexecutor : s.executor.ahead ≤ eventSteps * s.executor.inHand.length + 1 := by
    cases s.executor <;>
      simp only [Executor.ahead, Executor.inHand, List.length_nil, List.length_singleton,
        eventSteps] <;>
      omega
  simp only [inFlight, ahead, List.length_append, eventSteps, callRequests] at hexecutor ⊢
  omega

end EventPath

namespace Relay

/-- The steps ahead of the three tasks. -/
def ahead (s : Relay) : Nat := s.path.ahead + s.poller.ahead

/-- The steps the tasks take by themselves. The others are the passing of time,
the poller's deadline and what the connection brings to the listener. -/
def goesOn : Action → Bool
  | .sendAgain => true
  | .recv => true
  | .estimated _ => true
  | .fetched _ _ => true
  | .pollEstimated _ => true
  | _ => false

variable {feeType : Fee} {s : Relay}

/-- A step of the path that goes on finishes no event. -/
theorem ahead_pathStep (s : Relay) {b : EventPath.Action} (hb : EventPath.goesOn b = true) :
    s.pathStep feeType b = s ∨ (s.pathStep feeType b).ahead + 1 ≤ s.ahead := by
  rcases EventPath.ahead_goesOn feeType s.path hb with hsame | hless
  · left
    have hfinishes : s.path.finishes b = [] := by
      cases b with
      | propagated r => cases hb
      | _ => rfl
    rw [pathStep, hsame, hfinishes]
    rfl
  · right
    simp only [ahead, pathStep]
    omega

/-- What is ahead of the poller once it has the roots. -/
theorem ahead_getAndCompareRoots (feeType : Fee) (s : Relay) (l1Root : U256)
    (l2Root : L2RootResult) :
    (s.getAndCompareRoots feeType l1Root l2Root).poller.ahead ≤ callRequests + 1 := by
  unfold getAndCompareRoots
  split
  · exact Nat.zero_le _
  · cases feeType <;> simp [pollAttempt, Poller.ahead]

/-- **A task that goes on has one step less ahead of it**, or it was not its
turn. -/
theorem ahead_goesOn (feeType : Fee) (s : Relay) {a : Action} (ha : goesOn a = true) :
    s.step feeType a = s ∨ (s.step feeType a).ahead + 1 ≤ s.ahead := by
  cases a with
  | sendAgain => exact ahead_pathStep s rfl
  | recv => exact ahead_pathStep s rfl
  | estimated outcome => exact ahead_pathStep s rfl
  | fetched l1Root response =>
      simp only [step]
      split
      · rename_i hfetching
        right
        split
        · rename_i l1 l2 _
          have hpoller := ahead_getAndCompareRoots feeType s l1 l2
          simp only [ahead, path_getAndCompareRoots, hfetching, Poller.ahead] at hpoller ⊢
          omega
        · simp only [ahead, hfetching, Poller.ahead]
          omega
        · simp only [ahead, hfetching, Poller.ahead]
          omega
      · exact .inl rfl
  | pollEstimated outcome =>
      simp only [step]
      split
      · rename_i hestimating
        right
        cases outcome <;>
          simp only [pollAttempt, ahead, hestimating, Poller.ahead] <;>
          omega
      · exact .inl rfl
  | _ => cases ha

/-- An event or a poll is that much more. -/
theorem ahead_step (feeType : Fee) (s : Relay) {a : Action} (ha : goesOn a = false)
    (hreturn : Process.isReturn a = false) :
    (s.step feeType a).ahead + eventSteps * s.path.offered.length
      ≤ s.ahead + eventSteps * ((s.step feeType a).path.offered.length + (isPoll a).toNat) := by
  cases a with
  | elapse duration => exact Nat.le_refl _
  | event event =>
      have hsend := EventPath.ahead_send feeType s.path event
      have hoffered := congrArg List.length
        (EventPath.offered_step feeType s.path (.send event))
      rw [List.length_append] at hoffered
      simp only [step]
      split
      · simp only [receive]
        split
        · exact Nat.add_le_add_left (Nat.mul_le_mul_left _ (Nat.le_add_right _ _)) _
        · simp only [ahead, hoffered, eventSteps, callRequests] at hsend ⊢
          omega
      · exact Nat.add_le_add_left (Nat.mul_le_mul_left _ (Nat.le_add_right _ _)) _
  | giveUp =>
      have hahead : (s.path.step feeType .giveUp).ahead = s.path.ahead := by
        simp only [EventPath.step]
        split
        · rename_i hlistening
          simp only [EventPath.ahead, hlistening]
          rfl
        · rfl
      have hoffered : (s.path.step feeType .giveUp).offered = s.path.offered := by
        rw [EventPath.offered_step]
        exact List.append_nil _
      simp only [step, pathStep, ahead, hahead, hoffered]
      exact Nat.le_refl _
  | poll =>
      simp only [step]
      split
      · rename_i hwaiting
        simp only [ahead, hwaiting, Poller.ahead, eventSteps, callRequests, isPoll,
          Bool.toNat_true]
        omega
      · exact Nat.add_le_add_left (Nat.mul_le_mul_left _ (Nat.le_add_right _ _)) _
  | propagated r => cases hreturn
  | pollPropagated r => cases hreturn
  | _ => cases ha

/-- A return takes its call off. -/
theorem ahead_returns (feeType : Fee) (s : Relay) {t : Submitter} {value : U256}
    (h : Process.callValue s t = some value) (r : Except StateBridgeError Unit) :
    (s.step feeType (Process.returns t r)).ahead + callRequests ≤ s.ahead := by
  cases t with
  | executor =>
      have hcall : Process.executorValue s.path.executor = some value := h
      cases hexecutor : s.path.executor with
      | propagating event value' =>
          have hahead := EventPath.ahead_propagated feeType s.path hexecutor r
          simp only [Process.returns, step, pathStep, ahead]
          omega
      | _ =>
          rw [hexecutor] at hcall
          cases hcall
  | poller =>
      have hcall : Process.pollerValue s.poller = some value := h
      cases hpoller : s.poller with
      | propagating l1Root value' =>
          simp only [Process.returns, step, hpoller]
          cases r <;> simp [ahead, hpoller, Poller.ahead]
      | _ =>
          rw [hpoller] at hcall
          cases hcall

theorem ahead_le (s : Relay) : s.ahead ≤ eventSteps * s.load + 1 := by
  have hpath := EventPath.ahead_le s.path
  have hpoller : s.poller.ahead ≤ eventSteps * s.poller.work := by
    cases s.poller <;> simp [Poller.ahead, Poller.work, eventSteps]
  simp only [ahead, load, eventSteps, callRequests] at hpath hpoller ⊢
  omega

end Relay

/-! ## The calls -/

namespace Process

/-- The steps the tasks take by themselves, and those of their calls. -/
def goesOn : Action → Bool
  | .task a => Relay.goesOn a
  | .reply _ _ => true
  | _ => false

variable {feeType : Fee} {config : Config} {s : Process}

/-- **The invariant**: `moves` are the steps since `s₀`, and `used` the requests
the calls under way have made, which `ahead` still counts. -/
structure Spent (moves polls : Nat) (used : Submitter → Nat) (s₀ s : Process) : Prop
    extends Counted (fun used prog => Within (callRequests - used) prog) callRequests used s where
  balance : moves + s.relay.ahead + eventSteps * s₀.relay.path.offered.length
    ≤ s₀.relay.ahead + eventSteps * (s.relay.path.offered.length + polls)
      + (used .executor + used .poller)

/-- The calls under way are few requests from their ends. -/
theorem InStep.within (h : InStep config s) {t : Submitter}
    {prog : Task (Except StateBridgeError Unit)} (hcall : s.submitters.calls t = some prog) :
    Within callRequests prog := by
  cases hvalue : callValue s.relay t with
  | none =>
      -- a call that returned
      have hidle := h.idle t hvalue
      unfold Submitters.Idle at hidle
      rw [hcall] at hidle
      cases prog with
      | ret r => exact within_ret
      | _ => cases hidle
  | some value =>
      obtain ⟨tr, prog', hcall', hrun, -⟩ := h.call t value hvalue
      obtain rfl := Option.some.inj (hcall'.symm.trans hcall)
      exact hrun.within (propagateRootWithRetry_within config value)

theorem InStep.spent (h : InStep config s) : Spent 0 0 (fun _ => 0) s s where
  call _ _ hcall := h.within hcall
  limit _ := Nat.zero_le _
  idle _ _ := rfl
  balance := by
    simp only [Nat.zero_add, Nat.add_zero]
    exact Nat.le_refl _

/-- What is used up is still ahead. -/
theorem Spent.used_le {moves polls : Nat} {used : Submitter → Nat} {s₀ : Process}
    (h : Spent moves polls used s₀ s) : used .executor + used .poller ≤ s.relay.ahead := by
  have hexecutor : used .executor ≤ s.relay.path.executor.ahead := by
    have hlimit := h.limit .executor
    cases hexecutor : s.relay.path.executor with
    | propagating event value => exact Nat.le_succ_of_le hlimit
    | _ =>
        have hidle : callValue s.relay .executor = none := by
          rw [callValue, hexecutor]
          rfl
        rw [h.idle .executor hidle]
        exact Nat.zero_le _
  have hpoller : used .poller ≤ s.relay.poller.ahead := by
    have hlimit := h.limit .poller
    cases hpoller : s.relay.poller with
    | propagating l1Root value => exact hlimit
    | _ =>
        have hidle : callValue s.relay .poller = none := by
          rw [callValue, hpoller]
          rfl
        rw [h.idle .poller hidle]
        exact Nat.zero_le _
  simp only [Relay.ahead, EventPath.ahead]
  omega

section Step

variable {moves polls : Nat} {used : Submitter → Nat} {s₀ : Process}

theorem Spent.mono {moves' polls' : Nat} (h : Spent moves polls used s₀ s)
    (hmoves : moves' ≤ moves) (hpolls : polls ≤ polls') : Spent moves' polls' used s₀ s where
  toCounted := h.toCounted
  balance := by
    have hbalance := h.balance
    simp only [eventSteps, callRequests] at hbalance ⊢
    omega

theorem Spent.congr {s' : Process} (h : Spent moves polls used s₀ s)
    (hrelay : s'.relay = s.relay) (hcalls : s'.submitters.calls = s.submitters.calls) :
    Spent moves polls used s₀ s' where
  call := by
    rw [hcalls]
    exact h.call
  limit := h.limit
  idle := by
    rw [hrelay]
    exact h.idle
  balance := by
    rw [hrelay]
    exact h.balance

/-- A step of a task: it goes on, or it brings an event or a poll. -/
theorem Spent.task (h : Spent moves polls used s₀ s) (hinStep : InStep config s)
    {b : Relay.Action} (hb : isReturn b = false) (moved : Nat)
    (hmoved : moved + (s.relay.step feeType b).ahead + eventSteps * s.relay.path.offered.length
      ≤ s.relay.ahead + eventSteps * ((s.relay.step feeType b).path.offered.length
          + (Relay.isPoll b).toNat)) :
    Spent (moves + moved) (polls + (Relay.isPoll b).toNat) used s₀ { s with
      relay := s.relay.step feeType b
      submitters := run (Submitters.step config) s.submitters
        (callsMade s.relay (s.relay.step feeType b)) } where
  toCounted := h.toCounted.task feeType hinStep hb (propagateRootWithRetry_within config)
  balance := by
    have hbalance := h.balance
    simp only [eventSteps, callRequests] at hbalance hmoved ⊢
    omega

/-- An answer to a call is one of its requests; a return sets the others free. -/
theorem Spent.reply (h : Spent moves polls used s₀ s) (feeType : Fee)
    (hinStep : InStep config s) {t : Submitter} {x : Exchange Request Response}
    {prog prog' : Task (Except StateBridgeError Unit)}
    (hanswered : Answered config s t x prog prog') :
    ∃ used', Spent (moves + 1) polls used' s₀ { s with
      relay := goOn feeType s.relay t prog'
      submitters := answer s.submitters t prog' x } := by
  obtain ⟨value, tr, hvalue, -⟩ := hinStep.answered hanswered
  obtain ⟨left, hleft, hwithin⟩ := (h.call t prog hanswered.call).reply? hanswered.reply
  have hbalance := h.balance
  by_cases hret : ∃ r, prog' = .ret r
  · obtain ⟨r, rfl⟩ := hret
    have hahead := Relay.ahead_returns feeType s.relay hvalue r
    have hoffered := (Relay.load_returns feeType s.relay hvalue r).2
    have htotal := total_update used t 0
    refine ⟨Function.update used t 0, h.toCounted.returned feeType t x within_ret, ?_⟩
    show moves + 1 + (s.relay.step feeType (returns t r)).ahead + _
      ≤ _ + eventSteps * ((s.relay.step feeType (returns t r)).path.offered.length + polls) + _
    rw [hoffered]
    dsimp only at htotal
    omega
  · have htotal := total_update used t (used t + 1)
    have hrest : callRequests - (used t + 1) = left := by omega
    rw [goOn_of_ne_ret s.relay t hret]
    refine ⟨Function.update used t (used t + 1),
      h.toCounted.answered x hvalue (hrest ▸ hwithin) (by omega), ?_⟩
    dsimp only at htotal ⊢
    omega

end Step

/-! ### Runs -/

theorem polls_snoc (as : List Action) (a : Action) : polls as ≤ polls (as ++ [a]) := by
  unfold polls
  rw [List.countP_append]
  exact Nat.le_add_right _ _

theorem polls_snoc_task (as : List Action) (b : Relay.Action) :
    polls (as ++ [.task b]) = polls as + (Relay.isPoll b).toNat := by
  unfold polls
  rw [List.countP_append]
  cases hb : Relay.isPoll b <;> simp [hb]

theorem offered_step_le (feeType : Fee) (s : Relay) (a : Relay.Action) :
    s.path.offered.length ≤ (s.step feeType a).path.offered.length := by
  rcases Relay.path_step feeType s a with hsame | ⟨b, -, -, hnext⟩ | ⟨event, -, -, hnext⟩
  · rw [hsame]
  · rw [hnext, EventPath.offered_step, List.length_append]
    exact Nat.le_add_right _ _
  · rw [hnext, EventPath.offered_step, List.length_append]
    exact Nat.le_add_right _ _

/-- Between a state of the tasks and itself no call is made. -/
theorem callsMade_self (s : Relay) : callsMade s s = [] := by
  have hnone : ∀ t, newCall s s t = none := by
    intro t
    unfold newCall
    cases hvalue : callValue s t <;> simp
  simp [callsMade, hnone]

theorem spent_run (hinStep : InStep config s) (as : List Action) :
    ∃ used, Spent (changes (step feeType config) goesOn s as) (polls as) used s
      (run (step feeType config) s as) := by
  have h := run_history_invariant (step feeType config) (P := fun _ _ => True)
    (I := fun as s' => InStep config s'
      ∧ ∃ used, Spent (changes (step feeType config) goesOn s as) (polls as) used s s') (s := s)
    ⟨hinStep, _, hinStep.spent⟩ ?_ (along_true _ _ as)
  · exact h.2
  intro as a hspent _
  obtain ⟨hinStep', used, h⟩ := hspent
  refine ⟨hinStep'.step a, ?_⟩
  have hpolls := polls_snoc as a
  rcases step_cases feeType config (run (step feeType config) s as) a with heq
      | ⟨b, rfl, hb, heq⟩ | ⟨t, x, prog, prog', -, hanswered, heq⟩ | ⟨_, _, _, rfl, -, heq⟩
      | ⟨rfl, -, heq⟩ | ⟨b, count', included, -, hreply, htask, -, hsub, heq⟩
  · rw [changes_snoc_of_not _ _ _ _ (.inr heq), heq]
    exact ⟨used, h.mono (Nat.le_refl _) hpolls⟩
  · rw [polls_snoc_task]
    cases hgoes : Relay.goesOn b with
    | false =>
        -- an event, a poll, or the time
        rw [changes_snoc_of_not _ _ _ _ (.inl (show goesOn (.task b) = false from hgoes)), heq]
        refine ⟨used, h.task hinStep' hb 0 ?_⟩
        have hstep := Relay.ahead_step feeType
          (run (step feeType config) s as).relay hgoes hb
        omega
    | true =>
        rcases Relay.ahead_goesOn feeType (run (step feeType config) s as).relay hgoes
          with hsame | hless
        · -- it was not its turn
          have hrefused : (run (step feeType config) s as).step feeType config (.task b)
              = run (step feeType config) s as := by
            rw [heq, hsame, callsMade_self]
            rfl
          rw [changes_snoc_of_not _ _ _ _ (.inr hrefused), hrefused]
          exact ⟨used, h.mono (Nat.le_refl _) (Nat.le_add_right _ _)⟩
        · rw [heq]
          refine ⟨used, (h.task hinStep' hb 1 ?_).mono (changes_snoc_le _ _ s as _)
            (Nat.le_refl _)⟩
          have hoffered := offered_step_le feeType
            (run (step feeType config) s as).relay b
          simp only [eventSteps, callRequests]
          omega
  · obtain ⟨used', h'⟩ := h.reply feeType hinStep' hanswered
    rw [heq]
    exact ⟨used', h'.mono (changes_snoc_le _ _ s as a) hpolls⟩
  · rw [changes_snoc_of_not _ _ _ _ (.inl rfl), heq]
    exact ⟨used, (h.mono (Nat.le_refl _) hpolls).congr rfl rfl⟩
  · rw [changes_snoc_of_not _ _ _ _ (.inl rfl), heq]
    exact ⟨used, (h.mono (Nat.le_refl _) hpolls).congr rfl rfl⟩
  · have houtside : goesOn a = false := by
      cases a with
      | task b => exact absurd rfl (htask b)
      | reply t x => exact absurd rfl (hreply t x)
      | _ => rfl
    rw [changes_snoc_of_not _ _ _ _ (.inl houtside), heq]
    exact ⟨used, (h.mono (Nat.le_refl _) hpolls).congr rfl (by rw [hsub])⟩

/-! ## No task waits for another that waits -/

/-- A node that fails and drops what was sent, and a clock that does not fail. -/
def failure : (q : Request) → Response q
  | .estimateEip1559Fees => .error ⟨"timeout"⟩
  | .getTransactionCount _ => .error ⟨"timeout"⟩
  | .fillTransaction _ => .error ⟨"timeout"⟩
  | .call _ => .error ⟨"timeout"⟩
  | .signTransaction _ => .error ⟨"timeout"⟩
  | .sendRawTransaction _ => .error ⟨"timeout"⟩
  | .awaitReceipt _ _ => .ok none
  | .sleep _ => ()

theorem isLatest_failure (wallet : EthAddress) (count : Nat) (q : Request) :
    isLatest wallet count ⟨q, failure q⟩ = true := by
  cases q <;> rfl

/-- An answer that is taken changes the state: what is left of a call is not the
call as it was. -/
theorem step_ne_of_answered (hlive : s.exited = false) {t : Submitter}
    {x : Exchange Request Response} {prog prog' : Task (Except StateBridgeError Unit)}
    (h : Answered config s t x prog prog') : s.step feeType config (.reply t x) ≠ s := by
  intro hsame
  rw [step_answered hlive h] at hsame
  have hcalls : (answer s.submitters t prog' x).calls t = s.submitters.calls t :=
    congrArg (fun s : Process => s.submitters.calls t) hsame
  have hself : (answer s.submitters t prog' x).calls t = some prog' := Function.update_self ..
  obtain rfl : prog' = prog := Option.some.inj (hself.symm.trans (hcalls.trans h.call))
  exact reply?_ne_self h.reply

/-- No step of the tasks or of their calls changes anything. -/
def Still (feeType : Fee) (config : Config) (s : Process) : Prop :=
  ∀ a, goesOn a = true → s.step feeType config a = s

/-- A call under way is waiting for an answer, if it did not panic. -/
theorem Still.callValue_eq_none (h : Still feeType config s) (hsupervised : Supervised config s)
    (hsafe : s.doomed = false) (t : Submitter) : callValue s.relay t = none := by
  cases hvalue : callValue s.relay t with
  | none => rfl
  | some value =>
      obtain ⟨tr, prog, hcall, -, hret⟩ := hsupervised.inStep.call t value hvalue
      cases prog with
      | ret r => exact absurd rfl (hret r)
      | panic => exact absurd ⟨t, hcall⟩ (not_doomed_iff.mp hsafe).2.2
      | call q k =>
          have hanswered : Answered config s t ⟨q, failure q⟩ (.call q k) (k (failure q)) :=
            ⟨hcall, reply?_call ⟨q, failure q⟩ k, isLatest_failure ..⟩
          exact absurd (h (.reply t ⟨q, failure q⟩) rfl)
            (step_ne_of_answered (hsupervised.live hsafe) hanswered)

/-- The tasks are still as well. -/
theorem Still.relay (h : Still feeType config s) (hlive : s.exited = false) {b : Relay.Action}
    (hgoes : Relay.goesOn b = true) : s.relay.step feeType b = s.relay := by
  have hreturn : isReturn b = false := by
    cases b with
    | propagated r => cases hgoes
    | pollPropagated r => cases hgoes
    | _ => rfl
  have hstep := h (.task b) hgoes
  rw [step, if_neg (by simp [hlive, hreturn])] at hstep
  exact congrArg Process.relay hstep

/-- **Where nothing moves, nothing is left to do.** -/
theorem Still.load_eq_zero (h : Still feeType config s) (hsupervised : Supervised config s)
    (hclosed : s.relay.path.Closed) (hsafe : s.doomed = false) : s.relay.load = 0 := by
  have hlive := hsupervised.live hsafe
  have hidle := h.callValue_eq_none hsupervised hsafe
  have hwork : s.relay.poller.work = 0 := by
    have hpoller : pollerValue s.relay.poller = none := hidle .poller
    cases hcase : s.relay.poller with
    | fetching =>
        have hfetched := congrArg Relay.poller
          (h.relay hlive (b := .fetched (.error (.error "timeout")) (.error none)) rfl)
        simp only [Relay.step, hcase] at hfetched
        cases hfetched
    | estimating l1Root rootAsFelts =>
        have hestimated := congrArg Relay.poller
          (h.relay hlive (b := .pollEstimated (.error "timeout")) rfl)
        simp only [Relay.step, hcase] at hestimated
        cases hestimated
    | propagating l1Root value =>
        rw [hcase] at hpoller
        cases hpoller
    | _ => rfl
  have hpath : ∀ b : Relay.Action, Relay.goesOn b = true →
      (s.relay.step feeType b).path = s.relay.path :=
    fun b hgoes => congrArg Relay.path (h.relay hlive hgoes)
  have hexecutor : executorValue s.relay.path.executor = none := hidle .executor
  have hpending := EventPath.pending_of_quiet hclosed
    ⟨hpath .sendAgain rfl, hpath .recv rfl, fun outcome => hpath (.estimated outcome) rfl, by
      intro outcome
      cases hcase : s.relay.path.executor with
      | propagating event value =>
          rw [hcase] at hexecutor
          cases hexecutor
      | _ =>
          simp only [EventPath.step, hcase]⟩
  -- an executor that is in no propagation has in hand what it has not attempted
  have hhand : s.relay.path.executor.inHand = s.relay.path.executor.held := by
    cases hcase : s.relay.path.executor with
    | propagating event value =>
        rw [hcase] at hexecutor
        cases hexecutor
    | _ => rfl
  have hflight : s.relay.path.inFlight = [] := by
    rw [EventPath.inFlight, hhand]
    exact hpending
  rw [Relay.load, hflight, hwork]
  rfl

theorem closed_path (feeType : Fee) (config : Config) (now count : Nat) (as : List Action) :
    (run (step feeType config) (start now count) as).relay.path.Closed := by
  obtain ⟨rs, -, hrelay, -⟩ := views_run feeType config now count as
  obtain ⟨bs, hpath⟩ := Relay.path_run feeType now rs
  rw [hrelay, hpath]
  exact EventPath.closed_run feeType bs

/-- The steps that the tasks and their calls take: at most 26 for each event on its
way or received and for each poll, and one for the executor's return. -/
theorem moves_le (feeType : Fee) (config : Config) (now count : Nat) (as bs : List Action) :
    let s := run (step feeType config) (start now count) as
    let s' := run (step feeType config) s bs
    changes (step feeType config) goesOn s bs
      ≤ 26 * (s.relay.load
          + (s'.relay.path.offered.length - s.relay.path.offered.length) + polls bs) + 1 := by
  intro s s'
  have hsupervised : Supervised config s := supervised_run feeType config now count as
  obtain ⟨used, h⟩ : ∃ used,
      Spent (changes (step feeType config) goesOn s bs) (polls bs) used s s' :=
    spent_run hsupervised.inStep bs
  have hused := h.used_le
  have hbalance := h.balance
  have hahead := Relay.ahead_le s.relay
  simp only [eventSteps, callRequests] at hbalance hahead
  omega

end Process

end WorldIDBridge.Service
