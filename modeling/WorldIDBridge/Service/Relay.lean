import WorldIDBridge.Service.Executor
import WorldIDBridge.Service.RootCache
import WorldIDBridge.Service.Roots

/-!
# The relayer's three tasks

Listener, executor and poller share the cache of the roots seen. Listener
and poller put a root in before its propagation is tried, and no error takes
it out again; an event whose root is in the cache goes no further. The module
says when that loses no root. The poller's deadlines are left out: it may
poll at any time. A panic in a propagation ends the service and is left out
as well.
-/

namespace WorldIDBridge.Service

open TransitionRun

/-! ## What is on the event path -/

/-- The event the executor works on. -/
def Executor.inHand : Executor → List TreeChanged
  | estimating event _ => [event]
  | propagating event _ => [event]
  | _ => []

@[simp] theorem Executor.inHand_receiving : receiving.inHand = [] := rfl
@[simp] theorem Executor.inHand_estimating (event : TreeChanged) (root : List Felt252) :
    (estimating event root).inHand = [event] := rfl
@[simp] theorem Executor.inHand_propagating (event : TreeChanged) (value : U256) :
    (propagating event value).inHand = [event] := rfl
@[simp] theorem Executor.inHand_exited (result : Except ExecutorError Unit) :
    (exited result).inHand = [] := rfl

namespace EventPath

/-- The events queued or in progress, oldest first. -/
def inFlight (s : EventPath) : List TreeChanged :=
  s.executor.inHand ++ (s.channel.items ++ s.listener.held)

/-- The event whose propagation a step ends with success. -/
def finishes (s : EventPath) : Action → List TreeChanged
  | .propagated (.ok ()) =>
      match s.executor with
      | .propagating event _ => [event]
      | _ => []
  | _ => []

variable {feeType : Fee} {s : EventPath} {event : TreeChanged}

theorem inFlight_sendEvent (s : EventPath) (event : TreeChanged) :
    (s.sendEvent event).inFlight = s.executor.inHand
      ++ (s.channel.items ++ if s.channel.receiverGone = true then [] else [event]) := by
  rw [inFlight, queued_sendEvent, executor_sendEvent]

theorem inFlight_handle (feeType : Fee) (s : EventPath) (event : TreeChanged) :
    (handle feeType s event).inFlight = event :: (s.channel.items ++ s.listener.held) := by
  cases feeType <;> rfl

/-- An event leaves the path when its propagation succeeds, when the executor
gives it up, or when the listener cannot send it. -/
theorem inFlight_step (feeType : Fee) (s : EventPath) (a : Action) :
    s.inFlight ++ s.offers a
      = s.finishes a ++ (s.givesUp a ++ ((s.step feeType a).inFlight ++ s.unsent a)) := by
  obtain ⟨listener, channel, executor, offered, attempted⟩ := s
  cases a with
  | send event =>
      cases listener with
      | listening =>
          simp only [step, inFlight_sendEvent]
          cases hgone : channel.receiverGone <;>
            simp [inFlight, offers, finishes, givesUp, unsent, hgone]
      | _ => simp [step, offers, finishes, givesUp, unsent]
  | sendAgain =>
      cases listener with
      | sending event =>
          simp only [step, inFlight_sendEvent]
          cases hgone : channel.receiverGone <;>
            simp [inFlight, offers, finishes, givesUp, unsent, hgone]
      | _ => simp [step, offers, finishes, givesUp, unsent]
  | giveUp => cases listener <;> simp [step, offers, finishes, givesUp, unsent, inFlight]
  | recv =>
      cases executor with
      | receiving =>
          simp only [step, offers, finishes, givesUp, unsent, List.append_nil, List.nil_append]
          split
          · rename_i hrecv
            rw [inFlight_handle]
            simp [inFlight, Mpsc.items_of_recv? hrecv]
          · rename_i hrecv
            split
            · simp [inFlight, exit, Mpsc.recv?_eq_none hrecv]
            · rfl
      | _ => simp [step, offers, finishes, givesUp, unsent]
  | estimated outcome =>
      cases executor with
      | estimating event root =>
          cases outcome with
          | ok overallFee => simp [step, offers, finishes, givesUp, unsent, attempt, inFlight]
          | error e => simp [step, offers, finishes, givesUp, unsent, exit, inFlight]
      | _ => cases outcome <;> simp [step, offers, finishes, givesUp, unsent]
  | propagated outcome =>
      cases executor with
      | propagating event value =>
          cases outcome with
          | ok _ => simp [step, offers, finishes, givesUp, unsent, inFlight]
          | error e => simp [step, offers, finishes, givesUp, unsent, exit, inFlight]
      | _ => cases outcome <;> simp [step, offers, finishes, givesUp, unsent]

/-- Nothing comes onto the path but what is offered. -/
theorem mem_of_mem_inFlight_step {a : Action} (h : event ∈ (s.step feeType a).inFlight) :
    event ∈ s.inFlight ∨ event ∈ s.offers a := by
  rw [← List.mem_append, inFlight_step feeType s a]
  exact List.mem_append_right _ (List.mem_append_right _ (List.mem_append_left _ h))

/-- A listener that cannot send returns. -/
theorem unsent_eq_nil {a : Action} (h : (s.step feeType a).listener ≠ .exited) :
    s.unsent a = [] := by
  have hclosed : ∀ (s : EventPath) event, (s.sendEvent event).listener ≠ .exited →
      ¬ s.channel.receiverGone = true := by
    intro s event hne hgone
    exact hne (by rw [sendEvent, Mpsc.send_of_receiverGone hgone])
  obtain ⟨listener, channel, executor, offered, attempted⟩ := s
  cases a with
  | send event =>
      cases listener with
      | listening => exact if_neg (hclosed _ event h)
      | _ => rfl
  | sendAgain =>
      cases listener with
      | sending event => exact if_neg (hclosed _ event h)
      | _ => exact ite_self _
  | _ => rfl

/-- A step that gives up an event drops all but what the listener holds. -/
theorem inFlight_of_givesUp (feeType : Fee) {a : Action} (h : s.givesUp a ≠ []) :
    s.inFlight = s.givesUp a ++ s.listener.held
      ∧ s.finishes a = []
      ∧ (s.step feeType a).inFlight = s.listener.held
      ∧ (s.step feeType a).listener = s.listener := by
  obtain ⟨listener, channel, executor, offered, attempted⟩ := s
  cases a with
  | estimated outcome =>
      cases outcome with
      | ok _ => exact absurd rfl h
      | error e =>
          cases executor with
          | estimating event root => exact ⟨rfl, rfl, rfl, rfl⟩
          | _ => exact absurd rfl h
  | propagated outcome =>
      cases outcome with
      | ok _ => exact absurd rfl h
      | error e =>
          cases executor with
          | propagating event value => exact ⟨rfl, rfl, rfl, rfl⟩
          | _ => exact absurd rfl h
  | _ => exact absurd rfl h

/-- A listener that returned does not come back. -/
theorem listener_step_of_exited (h : s.listener = .exited) (a : Action) :
    (s.step feeType a).listener = .exited := by
  obtain ⟨listener, channel, executor, offered, attempted⟩ := s
  obtain rfl : listener = .exited := h
  cases a with
  | recv =>
      cases executor with
      | receiving =>
          simp only [step]
          split
          · cases feeType <;> rfl
          · split <;> rfl
      | _ => rfl
  | estimated outcome => cases executor <;> cases outcome <;> rfl
  | propagated outcome => cases executor <;> cases outcome <;> rfl
  | _ => rfl

end EventPath

/-! ## The three tasks -/

inductive Poller where
  /-- In `select!`, for the deadline or a signal. -/
  | waiting
  /-- In `fetch_roots().await`. -/
  | fetching
  | estimating (l1Root : U256) (rootAsFelts : List Felt252)
  | propagating (l1Root : U256) (value : U256)
  /-- Panicked. -/
  | exited
  deriving DecidableEq, Repr

/-- The root the poller works on. -/
def Poller.inHand : Poller → List U256
  | estimating l1Root _ => [l1Root]
  | propagating l1Root _ => [l1Root]
  | _ => []

/-- `succeeded` are the roots a propagation was tried for and succeeded. -/
structure Relay where
  path : EventPath
  cache : RootCache
  poller : Poller
  now : Nat
  succeeded : List U256

namespace Relay

def start (now : Nat) : Relay :=
  { path := .start, cache := .new cacheMaxSize cacheClearInterval now, poller := .waiting, now
    succeeded := [] }

/-- The listener decoded a log. -/
def receive (feeType : Fee) (s : Relay) (event : TreeChanged) : Relay :=
  let (hit, cache) := s.cache.contains s.now event.postRoot
  if hit then { s with cache }
  else
    { s with
      cache := cache.insert s.now event.postRoot
      path := s.path.step feeType (.send event) }

/-- The poller calls `propagate_root_with_retry`. -/
def pollAttempt (s : Relay) (l1Root : U256) (fee : Felt252) : Relay :=
  { s with poller := .propagating l1Root (feeToU256 fee) }

/-- `get_and_compare_roots` once it has the roots. -/
def getAndCompareRoots (feeType : Fee) (s : Relay) (l1Root : U256) (l2Root : L2RootResult) :
    Relay :=
  if synced l1Root l2Root then { s with poller := .waiting }
  else
    let s := { s with cache := s.cache.insert s.now l1Root }
    let rootAsFelts := intoFelt l1Root
    match feeType with
    | .default => s.pollAttempt l1Root defaultFee
    | .estimate => { s with poller := .estimating l1Root rootAsFelts }
    | .noFee => s.pollAttempt l1Root noFee

inductive Action where
  /-- Time passes. -/
  | elapse (duration : Nat)
  /-- The listener gets a `TreeChanged` event. -/
  | event (event : TreeChanged)
  | sendAgain
  | giveUp
  | recv
  | estimated (outcome : Except String Felt252)
  | propagated (outcome : Except StateBridgeError Unit)
  /-- The poller's deadline is over. -/
  | poll
  /-- The L1 root, and the answer of the L2 call. -/
  | fetched (l1Root : Except Failure U256) (response : L2Response)
  | pollEstimated (outcome : Except String Felt252)
  | pollPropagated (outcome : Except StateBridgeError Unit)

/-- A step of the listener's send or of the executor. -/
def pathStep (feeType : Fee) (s : Relay) (a : EventPath.Action) : Relay :=
  { s with
    path := s.path.step feeType a
    succeeded := (s.path.finishes a).map TreeChanged.postRoot ++ s.succeeded }

/-- One step of one task; a step that is not its turn changes nothing. -/
def step (feeType : Fee) (s : Relay) : Action → Relay
  | .elapse duration => { s with now := s.now + duration }
  | .event event =>
      match s.path.listener with
      | .listening => s.receive feeType event
      | _ => s
  | .sendAgain => s.pathStep feeType .sendAgain
  | .giveUp => s.pathStep feeType .giveUp
  | .recv => s.pathStep feeType .recv
  | .estimated outcome => s.pathStep feeType (.estimated outcome)
  | .propagated outcome => s.pathStep feeType (.propagated outcome)
  | .poll =>
      match s.poller with
      | .waiting => { s with poller := .fetching }
      | _ => s
  | .fetched l1Root response =>
      match s.poller with
      | .fetching =>
          match l1Root.bind fun l1Root => fetchRoots l1Root response with
          | .ok (l1Root, l2Root) => s.getAndCompareRoots feeType l1Root l2Root
          | .error (.error _) => { s with poller := .waiting }
          | .error (.panic _) => { s with poller := .exited }
      | _ => s
  | .pollEstimated outcome =>
      match s.poller with
      | .estimating l1Root _ =>
          match outcome with
          | .ok overallFee => s.pollAttempt l1Root (capEstimatedFee overallFee)
          | .error _ => { s with poller := .waiting }
      | _ => s
  | .pollPropagated outcome =>
      match s.poller with
      | .propagating l1Root _ =>
          match outcome with
          | .ok () => { s with poller := .waiting, succeeded := l1Root :: s.succeeded }
          -- an error is logged, and the poller waits for the next deadline
          | .error _ => { s with poller := .waiting }
      | _ => s

/-! ### The event path inside the relay -/

variable {feeType : Fee} {s : Relay} {root : U256}

theorem path_getAndCompareRoots (feeType : Fee) (s : Relay) (l1Root : U256)
    (l2Root : L2RootResult) : (s.getAndCompareRoots feeType l1Root l2Root).path = s.path := by
  unfold getAndCompareRoots
  split
  · rfl
  · cases feeType <;> rfl

/-- The listener leaves the poller and the clock alone. -/
theorem frame_event (feeType : Fee) (s : Relay) (event : TreeChanged) :
    (s.step feeType (.event event)).poller = s.poller
      ∧ (s.step feeType (.event event)).now = s.now := by
  simp only [step, receive]
  split
  · split <;> exact ⟨rfl, rfl⟩
  · exact ⟨rfl, rfl⟩

/-- **The event path inside the relay**: a step of the relay is a step of the
path, or leaves it alone; only an event that reaches a listener offers
something. -/
theorem path_step (feeType : Fee) (s : Relay) (a : Action) :
    (s.step feeType a).path = s.path
      ∨ (∃ b, s.path.offers b = [] ∧ (∀ outcome, b = .estimated outcome → a = .estimated outcome)
          ∧ (s.step feeType a).path = s.path.step feeType b)
      ∨ ∃ event, a = .event event ∧ s.path.offers (.send event) = [event]
          ∧ (s.step feeType a).path = s.path.step feeType (.send event) := by
  cases a with
  | event event =>
      simp only [step]
      split
      swap
      · exact .inl rfl
      rename_i hlistener
      simp only [receive]
      split
      · exact .inl rfl
      · exact .inr (.inr ⟨event, rfl, by simp only [EventPath.offers, hlistener], rfl⟩)
  | sendAgain => exact .inr (.inl ⟨.sendAgain, rfl, by simp, rfl⟩)
  | giveUp => exact .inr (.inl ⟨.giveUp, rfl, by simp, rfl⟩)
  | recv => exact .inr (.inl ⟨.recv, rfl, by simp, rfl⟩)
  | estimated outcome => exact .inr (.inl ⟨.estimated outcome, rfl, by simp, rfl⟩)
  | propagated outcome => exact .inr (.inl ⟨.propagated outcome, rfl, by simp, rfl⟩)
  | elapse duration => exact .inl rfl
  | poll =>
      simp only [step]
      split <;> exact .inl rfl
  | fetched l1Root response =>
      simp only [step]
      split
      · split
        · exact .inl (path_getAndCompareRoots feeType s _ _)
        · exact .inl rfl
        · exact .inl rfl
      · exact .inl rfl
  | pollEstimated outcome =>
      simp only [step]
      split
      · cases outcome <;> exact .inl rfl
      · exact .inl rfl
  | pollPropagated outcome =>
      simp only [step]
      split
      · cases outcome <;> exact .inl rfl
      · exact .inl rfl

/-- Only the listener brings an event onto the path. -/
theorem mem_of_mem_inFlight_step {a : Action} {event : TreeChanged}
    (h : event ∈ (s.step feeType a).path.inFlight) :
    event ∈ s.path.inFlight ∨ a = .event event := by
  rcases path_step feeType s a with hsame | ⟨b, hoffers, -, hnext⟩ | ⟨received, rfl, hoffers, hnext⟩
  · rw [hsame] at h
    exact .inl h
  · rw [hnext] at h
    have hold := EventPath.mem_of_mem_inFlight_step h
    rw [hoffers, or_iff_left List.not_mem_nil] at hold
    exact .inl hold
  · rw [hnext] at h
    have hold := EventPath.mem_of_mem_inFlight_step h
    rw [hoffers, List.mem_singleton] at hold
    exact hold.imp_right fun heq => congrArg Action.event heq.symm

/-- The path of every run of the relay is that of a run of the event path. -/
theorem path_run (feeType : Fee) (now : Nat) (as : List Action) :
    ∃ bs, (run (step feeType) (start now) as).path
      = run (EventPath.step feeType) EventPath.start bs := by
  refine run_invariant (step feeType)
    (I := fun s => ∃ bs, s.path = run (EventPath.step feeType) EventPath.start bs)
    (P := fun _ _ => True) ?_ ⟨[], rfl⟩ (along_true _ _ as)
  rintro s a ⟨bs, hs⟩ -
  have hsnoc : ∀ b, s.path.step feeType b
      = run (EventPath.step feeType) EventPath.start (bs ++ [b]) := by
    intro b
    rw [run_snoc, ← hs]
  rcases path_step feeType s a with hsame | ⟨b, -, -, hnext⟩ | ⟨event, -, -, hnext⟩
  · exact ⟨bs, hsame.trans hs⟩
  · exact ⟨bs ++ [b], hnext.trans (hsnoc b)⟩
  · exact ⟨bs ++ [.send event], hnext.trans (hsnoc _)⟩

/-! ## What a cache hit is worth -/

/-- A propagation tried for the root succeeded, or one is queued or in
progress. -/
def Covered (s : Relay) (root : U256) : Prop :=
  root ∈ s.succeeded ∨ root ∈ s.path.inFlight.map TreeChanged.postRoot ∨ root ∈ s.poller.inHand

/-- The listener would drop the event as a cache hit. -/
def Suppresses (s : Relay) (event : TreeChanged) : Prop :=
  s.path.listener = .listening ∧ (s.cache.contains s.now event.postRoot).1 = true

/-- An event dropped as a cache hit has a root that is covered. -/
def HitCovered (s : Relay) : Action → Prop
  | .event event => s.Suppresses event → s.Covered event.postRoot
  | _ => True

/-- The roots whose propagation a step gives up. -/
def givesUp (s : Relay) : Action → List U256
  | .estimated outcome => (s.path.givesUp (.estimated outcome)).map TreeChanged.postRoot
  | .propagated outcome => (s.path.givesUp (.propagated outcome)).map TreeChanged.postRoot
  | .pollEstimated (.error _) =>
      match s.poller with
      | .estimating l1Root _ => [l1Root]
      | _ => []
  | .pollPropagated (.error _) =>
      match s.poller with
      | .propagating l1Root _ => [l1Root]
      | _ => []
  | _ => []

/-- The root is covered also without the propagations the step gives up. -/
def CoveredElsewhere (s : Relay) (a : Action) (root : U256) : Prop :=
  root ∈ s.succeeded ∨
    match a with
    | .pollEstimated _ => root ∈ s.path.inFlight.map TreeChanged.postRoot
    | .pollPropagated _ => root ∈ s.path.inFlight.map TreeChanged.postRoot
    | _ => root ∈ s.path.listener.held.map TreeChanged.postRoot ∨ root ∈ s.poller.inHand

/-- Whatever root the step gives up is out of the cache or covered
elsewhere, as long as there is a listener to ask the cache. -/
def Recovers (s : Relay) (a : Action) : Prop :=
  s.path.listener ≠ .exited →
    ∀ root ∈ s.givesUp a, root ∈ s.cache.live s.now → s.CoveredElsewhere a root

/-- Every root in the cache is covered, as long as there is a listener. -/
def Pledged (s : Relay) : Prop :=
  s.path.listener ≠ .exited → ∀ root ∈ s.cache.live s.now, s.Covered root

/-- What is covered without what the executor gives up. -/
theorem covered_of_path_givesUp {a : EventPath.Action} (h : s.path.givesUp a ≠ []) :
    s.Covered root ↔ root ∈ (s.path.givesUp a).map TreeChanged.postRoot ∨ root ∈ s.succeeded
      ∨ root ∈ s.path.listener.held.map TreeChanged.postRoot ∨ root ∈ s.poller.inHand := by
  obtain ⟨hflight, -, -, -⟩ := EventPath.inFlight_of_givesUp .default h
  rw [Covered, hflight, List.map_append, List.mem_append]
  tauto

theorem covered_pathStep_of_givesUp {a : EventPath.Action} (h : s.path.givesUp a ≠ []) :
    (s.pathStep feeType a).Covered root ↔ root ∈ s.succeeded
      ∨ root ∈ s.path.listener.held.map TreeChanged.postRoot ∨ root ∈ s.poller.inHand := by
  obtain ⟨-, hfinishes, hflight, -⟩ := EventPath.inFlight_of_givesUp feeType h
  simp only [Covered, pathStep, hfinishes, hflight, List.map_nil, List.nil_append]

/-- What a step does that gives up a root: cache and listener stay, and what
is covered elsewhere is what is covered after it. -/
structure GivesUp (s s' : Relay) (a : Action) : Prop where
  cache : s'.cache.live s'.now = s.cache.live s.now
  listener : s'.path.listener = s.path.listener
  before : ∀ root, s.Covered root ↔ root ∈ s.givesUp a ∨ s.CoveredElsewhere a root
  after : ∀ root, s'.Covered root ↔ s.CoveredElsewhere a root

/-- A failure of the executor. -/
theorem givesUp_of_path (feeType : Fee) {a : EventPath.Action} {a' : Action}
    (hgives : s.givesUp a' = (s.path.givesUp a).map TreeChanged.postRoot)
    (helse : ∀ root, s.CoveredElsewhere a' root ↔ root ∈ s.succeeded
      ∨ root ∈ s.path.listener.held.map TreeChanged.postRoot ∨ root ∈ s.poller.inHand)
    (h : s.givesUp a' ≠ []) : GivesUp s (s.pathStep feeType a) a' := by
  have hpath : s.path.givesUp a ≠ [] := fun hnil => h (by rw [hgives, hnil, List.map_nil])
  obtain ⟨-, -, -, hlistener⟩ := EventPath.inFlight_of_givesUp feeType hpath
  refine ⟨rfl, hlistener, fun root => ?_, fun root => ?_⟩
  · rw [hgives, helse]
    exact covered_of_path_givesUp hpath
  · rw [helse]
    exact covered_pathStep_of_givesUp hpath

/-- A failure of the poller. -/
theorem givesUp_of_poller {a : Action} {l1Root : U256} (hhand : s.poller.inHand = [l1Root])
    (hgives : s.givesUp a = [l1Root])
    (helse : ∀ root, s.CoveredElsewhere a root ↔
      root ∈ s.succeeded ∨ root ∈ s.path.inFlight.map TreeChanged.postRoot) :
    GivesUp s { s with poller := .waiting } a := by
  refine ⟨rfl, rfl, fun root => ?_, fun root => ?_⟩
  · rw [Covered, helse, hgives, hhand]
    tauto
  · simp [Covered, helse, Poller.inHand]

theorem givesUp_step (feeType : Fee) {a : Action} (h : s.givesUp a ≠ []) :
    GivesUp s (s.step feeType a) a := by
  obtain ⟨path, cache, poller, now, succeeded⟩ := s
  cases a with
  | estimated outcome => exact givesUp_of_path feeType rfl (fun _ => Iff.rfl) h
  | propagated outcome => exact givesUp_of_path feeType rfl (fun _ => Iff.rfl) h
  | pollEstimated outcome =>
      cases outcome with
      | ok _ => exact absurd rfl h
      | error _ =>
          cases poller with
          | estimating l1Root _ => exact givesUp_of_poller rfl rfl fun _ => Iff.rfl
          | _ => exact absurd rfl h
  | pollPropagated outcome =>
      cases outcome with
      | ok _ => exact absurd rfl h
      | error _ =>
          cases poller with
          | propagating l1Root _ => exact givesUp_of_poller rfl rfl fun _ => Iff.rfl
          | _ => exact absurd rfl h
  | _ => exact absurd rfl h

/-- What any other step does, for as long as the listener is there: nothing
covered is lost, and what comes into the cache is covered. -/
structure Keeps (s s' : Relay) : Prop where
  listener : s.path.listener = .exited → s'.path.listener = .exited
  covered : s'.path.listener ≠ .exited → ∀ root, s.Covered root → s'.Covered root
  cache : s'.path.listener ≠ .exited →
    ∀ root ∈ s'.cache.live s'.now, root ∈ s.cache.live s.now ∨ s'.Covered root

theorem keeps_pathStep (feeType : Fee) {a : EventPath.Action} (hoffers : s.path.offers a = [])
    (hgives : s.path.givesUp a = []) : Keeps s (s.pathStep feeType a) where
  listener hexited := EventPath.listener_step_of_exited hexited a
  covered hne root hroot := by
    have hflight := EventPath.inFlight_step feeType s.path a
    rw [hoffers, hgives, EventPath.unsent_eq_nil hne, List.append_nil, List.nil_append,
      List.append_nil] at hflight
    simp only [Covered, hflight, List.map_append, List.mem_append] at hroot
    simp only [Covered, pathStep, List.mem_append]
    tauto
  cache _ _ hroot := .inl hroot

/-- A step of the poller that keeps, or ends with success, what it works on. -/
theorem keeps_of_poller {s' : Relay} (hpath : s'.path = s.path)
    (hsucceeded : ∀ root ∈ s.succeeded, root ∈ s'.succeeded)
    (hpoller : ∀ root ∈ s.poller.inHand, root ∈ s'.succeeded ∨ root ∈ s'.poller.inHand)
    (hcache : ∀ root ∈ s'.cache.live s'.now,
      root ∈ s.cache.live s.now ∨ root ∈ s'.poller.inHand) :
    Keeps s s' where
  listener hexited := by rw [hpath, hexited]
  covered _ root hroot := by
    rcases hroot with hdone | hflight | hhand
    · exact .inl (hsucceeded root hdone)
    · exact .inr (.inl (by rwa [hpath]))
    · exact (hpoller root hhand).imp_right .inr
  cache _ root hroot := (hcache root hroot).imp_right fun hhand => .inr (.inr hhand)

theorem keeps_self (s : Relay) : Keeps s s :=
  keeps_of_poller rfl (fun _ h => h) (fun _ h => .inr h) (fun _ h => .inl h)

theorem keeps_receive (feeType : Fee) {event : TreeChanged} (h : s.path.listener = .listening) :
    Keeps s (s.receive feeType event) := by
  unfold receive
  simp only [RootCache.contains_snd]
  split
  · exact keeps_of_poller rfl (fun _ h => h) (fun _ h => .inr h)
      fun _ h => .inl (RootCache.mem_of_mem_live_maybeClear h)
  · -- a miss: the event is queued or held, unless the listener returns
    have hflight : (s.path.step feeType (.send event)).listener ≠ .exited →
        (s.path.step feeType (.send event)).inFlight = s.path.inFlight ++ [event] := by
      intro hne
      have hstep := EventPath.inFlight_step feeType s.path (.send event)
      rw [EventPath.unsent_eq_nil hne, List.append_nil] at hstep
      simp only [EventPath.offers, h, EventPath.finishes, EventPath.givesUp] at hstep
      exact hstep.symm
    refine ⟨fun hexited => ?_, fun hne root hroot => ?_, fun hne root hroot => ?_⟩
    · rw [h] at hexited
      cases hexited
    · simp only [Covered] at hroot ⊢
      rw [hflight hne, List.map_append, List.mem_append]
      tauto
    · rcases RootCache.mem_of_mem_insert (RootCache.mem_of_mem_live hroot) with rfl | hold
      · refine .inr (.inr (.inl ?_))
        simp only [hflight hne, List.map_append, List.mem_append]
        exact .inr (List.mem_singleton_self event.postRoot)
      · exact .inl (RootCache.mem_of_mem_live_maybeClear hold)

theorem getAndCompareRoots_of_unsynced (feeType : Fee) (s : Relay) {l1Root : U256}
    {l2Root : L2RootResult} (h : synced l1Root l2Root = false) :
    (s.getAndCompareRoots feeType l1Root l2Root).poller.inHand = [l1Root]
      ∧ (s.getAndCompareRoots feeType l1Root l2Root).succeeded = s.succeeded
      ∧ (s.getAndCompareRoots feeType l1Root l2Root).now = s.now
      ∧ (s.getAndCompareRoots feeType l1Root l2Root).cache = s.cache.insert s.now l1Root := by
  unfold getAndCompareRoots
  rw [h]
  cases feeType <;> exact ⟨rfl, rfl, rfl, rfl⟩

theorem keeps_getAndCompareRoots (feeType : Fee) (l1Root : U256) (l2Root : L2RootResult)
    (h : s.poller.inHand = []) : Keeps s (s.getAndCompareRoots feeType l1Root l2Root) := by
  cases hsync : synced l1Root l2Root with
  | true =>
      simp only [getAndCompareRoots, hsync, if_true]
      exact keeps_of_poller rfl (fun _ h => h) (by simp [h]) fun _ h => .inl h
  | false =>
      obtain ⟨hhand, hsucceeded, hnow, hcache⟩ := getAndCompareRoots_of_unsynced feeType s hsync
      refine keeps_of_poller (path_getAndCompareRoots feeType s l1Root l2Root)
        (fun _ h => hsucceeded ▸ h) (by simp [h]) fun root hroot => ?_
      rw [hcache, hnow] at hroot
      rw [hhand, List.mem_singleton]
      exact (RootCache.mem_of_mem_insert (RootCache.mem_of_mem_live hroot)).symm

theorem keeps_step (feeType : Fee) {a : Action} (h : s.givesUp a = []) :
    Keeps s (s.step feeType a) := by
  cases a with
  | elapse duration =>
      exact keeps_of_poller rfl (fun _ h => h) (fun _ h => .inr h)
        fun _ h => .inl (RootCache.mem_live_of_later h)
  | event event =>
      simp only [step]
      split
      · rename_i hlistener
        exact keeps_receive feeType hlistener
      · exact keeps_self s
  | sendAgain => exact keeps_pathStep feeType rfl rfl
  | giveUp => exact keeps_pathStep feeType rfl rfl
  | recv => exact keeps_pathStep feeType rfl rfl
  | estimated outcome => exact keeps_pathStep feeType rfl (List.map_eq_nil_iff.mp h)
  | propagated outcome => exact keeps_pathStep feeType rfl (List.map_eq_nil_iff.mp h)
  | poll =>
      simp only [step]
      split
      · rename_i hpoller
        exact keeps_of_poller rfl (fun _ h => h) (by simp [hpoller, Poller.inHand]) fun _ h => .inl h
      · exact keeps_self s
  | fetched l1Root response =>
      simp only [step]
      split
      · rename_i hpoller
        have hhand : s.poller.inHand = [] := by rw [hpoller]; rfl
        split
        · exact keeps_getAndCompareRoots feeType _ _ hhand
        · exact keeps_of_poller rfl (fun _ h => h) (by simp [hhand]) fun _ h => .inl h
        · exact keeps_of_poller rfl (fun _ h => h) (by simp [hhand]) fun _ h => .inl h
      · exact keeps_self s
  | pollEstimated outcome =>
      simp only [step]
      split
      · rename_i hpoller
        cases outcome with
        | ok overallFee =>
            exact keeps_of_poller rfl (fun _ h => h) (by simp [hpoller, pollAttempt, Poller.inHand])
              fun _ h => .inl h
        | error _ => simp [givesUp, hpoller] at h
      · exact keeps_self s
  | pollPropagated outcome =>
      simp only [step]
      split
      · rename_i hpoller
        cases outcome with
        | ok _ =>
            exact keeps_of_poller rfl (fun _ h => List.mem_cons_of_mem _ h)
              (by simp [hpoller, Poller.inHand]) fun _ h => .inl h
        | error _ => simp [givesUp, hpoller] at h
      · exact keeps_self s

/-! ### The law of the cache -/

theorem pledged_start (now : Nat) : (start now).Pledged :=
  fun _ _ hroot => absurd (RootCache.mem_of_mem_live hroot) (Finset.notMem_empty _)

/-- The steps that leave every root in the cache covered. -/
theorem pledged_step_iff (feeType : Fee) (s : Relay) (a : Action) (h : s.Pledged) :
    (s.step feeType a).Pledged ↔ s.Recovers a := by
  by_cases hgives : s.givesUp a = []
  · have hkeeps := keeps_step feeType hgives
    refine iff_of_true (fun hne root hroot => ?_) (fun _ root hroot => ?_)
    · rcases hkeeps.cache hne root hroot with hold | hnew
      · exact hkeeps.covered hne root (h (fun hexited => hne (hkeeps.listener hexited)) root hold)
      · exact hnew
    · rw [hgives] at hroot
      cases hroot
  · have hstep := givesUp_step feeType hgives
    simp only [Pledged, Recovers, hstep.cache, hstep.listener, hstep.after]
    refine forall_congr' fun hne => ⟨fun hall root _ hroot => hall root hroot, fun hall root hroot => ?_⟩
    rcases (hstep.before root).mp (h hne root hroot) with hgiven | helse
    · exact hall root hgiven hroot
    · exact helse

/-- **Every root in the cache stays covered in exactly the runs** in which
each failure gives up only roots that are out of the cache or covered
elsewhere. -/
theorem pledged_iff (feeType : Fee) (now : Nat) (as : List Action) :
    Along (step feeType) (fun s a => (s.step feeType a).Pledged) (start now) as
      ↔ Along (step feeType) Recovers (start now) as :=
  along_invariant_iff _ (pledged_step_iff feeType) (pledged_start now)

theorem Pledged.hitCovered (h : s.Pledged) (a : Action) : s.HitCovered a := by
  cases a with
  | event event =>
      intro ⟨hlistener, hhit⟩
      exact h (by rw [hlistener]; exact nofun) event.postRoot (RootCache.contains_eq_true.mp hhit)
  | _ => trivial

end Relay

open Relay in
/-- **A cache hit loses no root** in every run in which each failed fee
estimation and each failed propagation gives up only roots that are out of
the cache, or that another propagation covers. -/
theorem cache_hit_covered (feeType : Fee) (now : Nat) (as : List Relay.Action)
    (h : Along (step feeType) Recovers (start now) as) :
    Along (step feeType) HitCovered (start now) as :=
  along_of_invariant _ (fun s a hs hP => (pledged_step_iff feeType s a hs).mpr hP)
    (fun _ a hs _ => hs.hitCovered a) (pledged_start now) h

/-! ## A failed catch-up -/

theorem Relay.step_fetched (feeType : Fee) {s : Relay} (h : s.poller = .fetching) {l1Root : U256}
    {response : L2Response} {l2Root : L2RootResult}
    (hfetch : fetchRoots l1Root response = .ok (l1Root, l2Root)) :
    s.step feeType (.fetched (.ok l1Root) response)
      = s.getAndCompareRoots feeType l1Root l2Root := by
  simp only [step, h, Except.bind, hfetch]

/-- The poller finds root 5 on L1 and root 3 on L2; its propagation fails.
Then the event with root 5 arrives. -/
def failedCatchUp : List Relay.Action :=
  [.poll, .fetched (.ok 5) (.ok (L2.Serde.serialize (3 : U256))),
    .pollPropagated (.error (.gasLimitError 400000)), .event ⟨5⟩]

open Relay in
/-- The event is dropped as a cache hit: no propagation for its root
succeeded, is queued or is in progress. -/
theorem failed_catch_up_suppresses :
    let s := run (step .default) (start 0) (failedCatchUp.take 3)
    s.Suppresses ⟨5⟩ ∧ s.succeeded = [] ∧ s.path.inFlight = [] ∧ s.poller = .waiting
      ∧ (run (step .default) (start 0) failedCatchUp).path.offered = []
      ∧ ¬ Along (step .default) HitCovered (start 0) failedCatchUp := by
  intro s
  -- the root is in the cache, and the poller waits for its next deadline
  have hs : s = { start 0 with cache := (start 0).cache.insert 0 5 } := by
    show step .default (step .default { start 0 with poller := .fetching }
      (.fetched (.ok 5) (.ok (L2.Serde.serialize (3 : U256)))))
      (.pollPropagated (.error (.gasLimitError 400000))) = _
    rw [step_fetched .default rfl (fetchRoots_serialize (by decide) (by decide))]
    rfl
  have hhit : s.Suppresses ⟨5⟩ := by
    rw [hs]
    exact ⟨rfl, by decide⟩
  have hcovered : ¬ s.Covered 5 := by
    rw [hs]
    rintro (h | h | h) <;> cases h
  refine ⟨hhit, ?_, ?_, ?_, ?_, ?_⟩
  · rw [hs]
    rfl
  · rw [hs]
    rfl
  · rw [hs]
    rfl
  · show (step .default s (.event ⟨5⟩)).path.offered = []
    rw [hs]
    rfl
  · intro ⟨_, _, _, hlast, _⟩
    exact hcovered (hlast hhit)

open Relay in
/-- The second event with root 5 is a hit, its propagation has succeeded. The
propagation of root 6 fails when the interval is over, so the cache does not
hold it any more. -/
theorem cache_hit_covered_sample :
    Along (step .default) HitCovered (start 0)
      [.event ⟨5⟩, .recv, .propagated (.ok ()), .event ⟨5⟩, .event ⟨6⟩, .recv,
        .elapse cacheClearInterval, .propagated (.error (.gasLimitError 400000))] :=
  cache_hit_covered .default 0 _ (by
    refine ⟨nofun, nofun, nofun, nofun, nofun, nofun, nofun, ?_, trivial⟩
    intro _ root _ hlive
    exact absurd hlive (Finset.notMem_empty root))

end WorldIDBridge.Service
