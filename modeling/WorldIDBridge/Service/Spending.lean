import Mathlib.Algebra.Order.BigOperators.Group.List
import WorldIDBridge.Service.MessageFee
import WorldIDBridge.Service.Process
import WorldIDBridge.Service.Simulation

/-!
# What the service can spend

A transaction attaches the fee of its message. The fee is capped, a call
broadcasts once for an attempt, and a call is made for an event the listener
took or a poll: together they bound the value the service attaches in any run,
however the nodes answer.
-/

namespace WorldIDBridge.Service

open Prog TransitionRun

variable {feeType : Fee} {config : Config} {value : U256}

/-! ## The broadcasts of a call -/

/-- The monitor that counts the broadcasts, and allows three. -/
def sends : Monitor Request Response Nat where
  allows
    | n, .sendRawTransaction _ => n < 3
    | _, _ => True
  next n q a := n + (sentIn ⟨q, a⟩).length

/-- Filling and simulating broadcasts nothing. -/
theorem fillAndSimulate_sends (n : Nat) :
    (fillAndSimulateEip1559Transaction propagateRootCalldata config.l1BridgeAddress
        config.walletAddress config.chainId value).run.wp sends (fun _ n' => n' = n) n := by
  simp only [fillAndSimulateEip1559Transaction, wp_mapErr_bind, wp_lift_bind]
  refine ⟨trivial, fun fees => ?_⟩
  cases fees with
  | error e => rfl
  | ok fees =>
      refine ⟨trivial, fun count => ?_⟩
      cases count with
      | error e => trivial
      | ok nonce =>
          refine ⟨trivial, fun filled => ?_⟩
          cases filled with
          | error e => rfl
          | ok gas =>
              simp only [wp_ret, wp_unwrap]
              intro gas _ product _
              refine ⟨trivial, fun simulated => ?_⟩
              cases simulated <;> rfl

theorem signAndSendTransaction_sends (tx : Eip1559Transaction) (blockConfirmations : Nat) {n : Nat}
    (h : n < 3) :
    (signAndSendTransaction tx blockConfirmations).run.wp sends (fun _ n' => n' ≤ n + 1) n := by
  simp only [signAndSendTransaction, wp_mapErr_bind, wp_lift_bind]
  refine ⟨trivial, fun signed => ?_⟩
  cases signed with
  | error e => exact Nat.le_succ n
  | ok _ =>
      refine ⟨h, fun sent => ?_⟩
      cases sent with
      | error e =>
          simp only [wp_ret]
          split <;> exact Nat.le_refl (n + 1)
      | ok _ =>
          simp only [wp_ret, waitForTxReceipt, wp_mapErr_bind]
          refine ⟨trivial, fun awaited => ?_⟩
          cases awaited with
          | error e => exact Nat.le_refl (n + 1)
          | ok receipt => cases receipt <;> exact Nat.le_refl (n + 1)

/-- An attempt broadcasts once at most. -/
theorem propagateRoot_sends (config : Config) (value : U256) {n : Nat} (h : n < 3) :
    (propagateRoot config value).run.wp sends (fun _ n' => n' ≤ n + 1) n := by
  simp only [propagateRoot, wp_mapErr_bind, wp_lift_bind, wp_unwrap]
  refine wp_mono (fillAndSimulate_sends n) fun filled n' hn => ?_
  subst hn
  cases filled with
  | error e => exact Nat.le_succ n'
  | ok tx =>
      intro gasLimit _
      split
      · simp only [wp_mapErr_bind]
        have hsend := signAndSendTransaction_sends tx config.blockConfirmations h
        refine wp_mono hsend fun sent n'' hle => ?_
        cases sent with
        | error e => exact hle
        | ok receipt =>
            simp only
            split
            · simp only [wp_lift_bind, wp_unwrap]
              exact fun _ _ => hle
            · exact hle
      · exact Nat.le_succ n'

/-- The retry loop broadcasts once for an attempt. The induction is on the
delays left. -/
theorem retryLoop_sends (config : Config) (value : U256) (delays : List Nat) {n : Nat}
    (h : n + delays.length < 3) :
    (retryLoop config value delays).wp sends (fun _ n' => n' ≤ 3) n := by
  induction delays generalizing n with
  | nil => exact wp_mono (propagateRoot_sends config value h) fun _ _ hle => by omega
  | cons delay delays ih =>
      simp only [List.length_cons] at h
      rw [retryLoop, wp_bind]
      refine wp_mono (propagateRoot_sends config value (by omega)) fun result n' hle => ?_
      cases result with
      | ok _ => exact Nat.le_trans hle (by omega)
      | error err =>
          simp only
          split
          · rw [wp_bind]
            exact ⟨trivial, fun _ => ih (by show n' + delays.length < 3; omega)⟩
          · exact Nat.le_trans hle (by omega)

/-! ## What is to be propagated -/

/-- A poll that is not over. -/
def Poller.work : Poller → Nat
  | .waiting => 0
  | .exited => 0
  | _ => 1

theorem Poller.work_le_one (p : Poller) : p.work ≤ 1 := by
  cases p <;> simp [work]

namespace Relay

/-- The events on their way and the poll under way. -/
def load (s : Relay) : Nat := s.path.inFlight.length + s.poller.work

def isPoll : Action → Bool
  | .poll => true
  | _ => false

end Relay

/-- What a step does to the number of events on their way. -/
theorem EventPath.load_step (feeType : Fee) (s : EventPath) (a : EventPath.Action) :
    (s.finishes a).length + (s.givesUp a).length + (s.step feeType a).inFlight.length
        + s.offered.length
      ≤ s.inFlight.length + (s.step feeType a).offered.length := by
  have hlength := congrArg List.length (EventPath.inFlight_step feeType s a)
  simp only [List.length_append] at hlength
  rw [EventPath.offered_step, List.length_append]
  omega

namespace Relay

/-- Only a poll gives an idle poller work. -/
theorem work_step (feeType : Fee) (s : Relay) (a : Action) :
    (s.step feeType a).poller.work ≤ s.poller.work + (isPoll a).toNat := by
  have hone := (s.step feeType a).poller.work_le_one
  by_cases hidle : s.poller.work = 0
  · cases a with
    | poll => exact Nat.le_trans hone (Nat.le_add_left 1 _)
    | event event =>
        rw [(frame_event feeType s event).1]
        exact Nat.le_add_right _ _
    | _ =>
        -- an idle poller does nothing else
        obtain ⟨path, cache, poller, now, succeeded⟩ := s
        cases poller with
        | waiting => exact Nat.le_add_right _ _
        | exited => exact Nat.le_add_right _ _
        | _ => cases hidle
  · omega

/-- A return takes off what it was called for. -/
theorem load_returns (feeType : Fee) (s : Relay) {t : Submitter}
    (h : Process.callValue s t = some value) (r : Except StateBridgeError Unit) :
    (s.step feeType (Process.returns t r)).load + 1 ≤ s.load
      ∧ (s.step feeType (Process.returns t r)).path.offered = s.path.offered := by
  cases t with
  | executor =>
      have hload := EventPath.load_step feeType s.path (.propagated r)
      have hoffered : (s.path.step feeType (.propagated r)).offered = s.path.offered := by
        rw [EventPath.offered_step]
        exact List.append_nil _
      -- the event in hand is finished, or given up
      have hleaves : 1 ≤ (s.path.finishes (.propagated r)).length
          + (s.path.givesUp (.propagated r)).length := by
        have hcall : Process.executorValue s.path.executor = some value := h
        cases hexecutor : s.path.executor with
        | propagating event value' =>
            cases r with
            | ok _ => simp [EventPath.finishes, hexecutor]
            | error e =>
                simp only [EventPath.givesUp, hexecutor, List.length_cons]
                omega
        | _ =>
            rw [hexecutor] at hcall
            cases hcall
      refine ⟨?_, hoffered⟩
      show (s.path.step feeType (.propagated r)).inFlight.length + s.poller.work + 1
        ≤ s.path.inFlight.length + s.poller.work
      rw [hoffered] at hload
      omega
  | poller =>
      obtain ⟨path, cache, poller, now, succeeded⟩ := s
      cases poller with
      | propagating l1Root value' => cases r <;> exact ⟨Nat.le_refl _, rfl⟩
      | _ => cases h

/-- A step takes on what it brings. -/
theorem load_step (feeType : Fee) (s : Relay) (a : Action) :
    (s.step feeType a).load + s.path.offered.length
      ≤ s.load + (s.step feeType a).path.offered.length + (isPoll a).toNat := by
  have hwork := work_step feeType s a
  have hpath : (s.step feeType a).path.inFlight.length + s.path.offered.length
      ≤ s.path.inFlight.length + (s.step feeType a).path.offered.length := by
    rcases path_step feeType s a with hsame | ⟨b, -, -, hnext⟩ | ⟨event, -, -, hnext⟩
    · rw [hsame]
    · have hload := EventPath.load_step feeType s.path b
      rw [hnext]
      omega
    · have hload := EventPath.load_step feeType s.path (.send event)
      rw [hnext]
      omega
  unfold load
  omega

end Relay

/-! ## The number of broadcasts -/

namespace Process

variable {s : Process}

/-- The polls of a run. -/
def polls (as : List Action) : Nat :=
  as.countP fun
    | .task a => Relay.isPoll a
    | _ => false

/-- Something the calls under way are counted in: `G` says what a count means for
the rest of a call. -/
structure Counted (G : Nat → Task (Except StateBridgeError Unit) → Prop) (bound : Nat)
    (n : Submitter → Nat) (s : Process) : Prop where
  call : ∀ t prog, s.submitters.calls t = some prog → G (n t) prog
  limit : ∀ t, n t ≤ bound
  idle : ∀ t, callValue s.relay t = none → n t = 0

section Counted

variable {G : Nat → Task (Except StateBridgeError Unit) → Prop} {bound : Nat}
  {n : Submitter → Nat}

/-- A new call starts with nothing. -/
theorem Counted.task (h : Counted G bound n s) (feeType : Fee) (hinStep : InStep config s)
    {b : Relay.Action} (hb : isReturn b = false) (hnew : ∀ value, G 0 (propagateRootWithRetry config value)) :
    Counted G bound n { s with
      relay := s.relay.step feeType b
      submitters := run (Submitters.step config) s.submitters
        (callsMade s.relay (s.relay.step feeType b)) } := by
  obtain ⟨hcalls, -⟩ := calls_callsMade config (s.relay.step feeType b) hinStep.idle_iff
  obtain ⟨hstay, -⟩ := callValue_task feeType s.relay hb
  refine ⟨fun t prog hprog => ?_, h.limit, fun t hvalue => h.idle t ?_⟩
  · have hcall := (hcalls t).symm.trans hprog
    cases hmade : newCall s.relay (s.relay.step feeType b) t with
    | none =>
        rw [hmade] at hcall
        exact h.call t prog hcall
    | some value =>
        rw [hmade] at hcall
        obtain rfl := Option.some.inj hcall
        rw [h.idle t (Option.isNone_iff_eq_none.mp (newCall_eq_some hmade).1)]
        exact hnew value
  · cases hbefore : callValue s.relay t with
    | none => rfl
    | some value => exact absurd ((hstay t value hbefore).symm.trans hvalue) (by simp)

/-- After an answer to a call: its own count is `k`, the other's as it was. -/
theorem Counted.update (h : Counted G bound n s) {t : Submitter}
    {prog' : Task (Except StateBridgeError Unit)} {x : Exchange Request Response} {k : Nat}
    (hprog : G k prog') (hle : k ≤ bound) :
    (∀ t' prog₁, (answer s.submitters t prog' x).calls t' = some prog₁ →
        G (Function.update n t k t') prog₁)
      ∧ ∀ t', Function.update n t k t' ≤ bound := by
  constructor
  · intro t' prog₁ hcall
    by_cases ht : t' = t
    · subst ht
      have hself : (answer s.submitters t' prog' x).calls t' = some prog' :=
        Function.update_self ..
      obtain rfl := Option.some.inj (hself.symm.trans hcall)
      rwa [Function.update_self]
    · have hother : (answer s.submitters t prog' x).calls t' = s.submitters.calls t' :=
        Function.update_of_ne ht ..
      rw [Function.update_of_ne ht]
      exact h.call t' prog₁ (hother.symm.trans hcall)
  · intro t'
    by_cases ht : t' = t
    · subst ht
      rwa [Function.update_self]
    · rw [Function.update_of_ne ht]
      exact h.limit t'

/-- A call that returns counts no more. -/
theorem Counted.returned (h : Counted G bound n s) (feeType : Fee) (t : Submitter)
    (x : Exchange Request Response) {r : Except StateBridgeError Unit} (hdone : G 0 (.ret r)) :
    Counted G bound (Function.update n t 0) { s with
      relay := s.relay.step feeType (returns t r)
      submitters := answer s.submitters t (.ret r) x } := by
  obtain ⟨hcalls, hlimits⟩ := h.update (t := t) (x := x) hdone (Nat.zero_le bound)
  refine ⟨hcalls, hlimits, fun t' hvalue' => ?_⟩
  obtain ⟨-, hothers, -⟩ := callValue_returns feeType s.relay t r
  by_cases ht : t' = t
  · subst ht
    exact Function.update_self ..
  · rw [Function.update_of_ne ht]
    exact h.idle t' ((hothers t' ht).symm.trans hvalue')

/-- A call that goes on has a new count. -/
theorem Counted.answered (h : Counted G bound n s) {t : Submitter} (x : Exchange Request Response)
    {prog' : Task (Except StateBridgeError Unit)} {value : U256} {k : Nat}
    (hvalue : callValue s.relay t = some value) (hprog : G k prog') (hle : k ≤ bound) :
    Counted G bound (Function.update n t k) { s with
      submitters := answer s.submitters t prog' x } := by
  obtain ⟨hcalls, hlimits⟩ := h.update (t := t) (x := x) hprog hle
  refine ⟨hcalls, hlimits, fun t' hvalue' => ?_⟩
  have ht : t' ≠ t := by
    intro heq
    subst heq
    rw [hvalue] at hvalue'
    cases hvalue'
  rw [Function.update_of_ne ht]
  exact h.idle t' hvalue'

end Counted

theorem goOn_of_ne_ret (s : Relay) (t : Submitter) {prog : Task (Except StateBridgeError Unit)}
    (h : ¬ ∃ r, prog = .ret r) : goOn feeType s t prog = s := by
  cases prog with
  | ret r => exact absurd ⟨r, rfl⟩ h
  | _ => rfl

/-- **The invariant**: an event off the path and a poll that is over stand for
three broadcasts each, and `n` counts those of the calls under way. -/
structure Paid (polls : Nat) (n : Submitter → Nat) (s : Process) : Prop where
  call : ∀ t prog, s.submitters.calls t = some prog → prog.wp sends (fun _ n' => n' ≤ 3) (n t)
  limit : ∀ t, n t ≤ 3
  idle : ∀ t, callValue s.relay t = none → n t = 0
  balance : s.submitters.broadcast.length + 3 * s.relay.load
    ≤ 3 * (s.relay.path.offered.length + polls) + (n .executor + n .poller)

theorem paid_start (now count : Nat) : Paid 0 (fun _ => 0) (start now count) where
  call := by
    intro t prog h
    cases h
  limit _ := Nat.zero_le 3
  idle _ _ := rfl
  balance := Nat.le_refl 0

theorem Paid.counted {polls : Nat} {n : Submitter → Nat} (h : Paid polls n s) :
    Counted (fun n prog => prog.wp sends (fun _ n' => n' ≤ 3) n) 3 n s :=
  ⟨h.call, h.limit, h.idle⟩

/-- A step of a task, with the calls it makes. -/
theorem Paid.task {polls : Nat} {n : Submitter → Nat} (h : Paid polls n s)
    (hinStep : InStep config s) {b : Relay.Action} (hb : isReturn b = false) :
    Paid (polls + (Relay.isPoll b).toNat) n { s with
      relay := s.relay.step feeType b
      submitters := run (Submitters.step config) s.submitters
        (callsMade s.relay (s.relay.step feeType b)) } := by
  have hcounted := h.counted.task feeType hinStep hb fun value =>
    retryLoop_sends config value retryDelays (by decide)
  refine ⟨hcounted.call, hcounted.limit, hcounted.idle, ?_⟩
  obtain ⟨-, hbroadcast⟩ := calls_callsMade config (s.relay.step feeType b) hinStep.idle_iff
  have hload := Relay.load_step feeType s.relay b
  have hbalance := h.balance
  show (run (Submitters.step config) s.submitters
      (callsMade s.relay (s.relay.step feeType b))).broadcast.length + _ ≤ _
  rw [hbroadcast]
  dsimp only
  omega

theorem total_update (n : Submitter → Nat) (t : Submitter) (k : Nat) :
    let n' := Function.update n t k
    n' .executor + n' .poller + n t = n .executor + n .poller + k := by
  intro n'
  cases t <;> simp [n'] <;> omega

/-- What the call's broadcasts come to with an answer. -/
theorem sends_reply {n : Nat} {x : Exchange Request Response} (hallows : sends.allows n x.1)
    (h : n ≤ 3) : n + (sentIn x).length ≤ 3 := by
  obtain ⟨q, a⟩ := x
  cases q with
  | sendRawTransaction tx => exact hallows
  | _ => exact h

/-- An answer to a call: a broadcast is counted with its call, until that
returns. -/
theorem Paid.reply {polls : Nat} {n : Submitter → Nat} (h : Paid polls n s)
    (hinStep : InStep config s) {t : Submitter} {x : Exchange Request Response}
    {prog prog' : Task (Except StateBridgeError Unit)}
    (hanswered : Answered config s t x prog prog') :
    ∃ n', Paid polls n' { s with
      relay := goOn feeType s.relay t prog'
      submitters := answer s.submitters t prog' x } := by
  obtain ⟨value, tr, hvalue, -⟩ := hinStep.answered hanswered
  obtain ⟨hallows, hnext⟩ := wp_of_reply? (h.call t prog hanswered.call) hanswered.reply
  have hlimit := sends_reply hallows (h.limit t)
  have hbalance := h.balance
  have hlength : (answer s.submitters t prog' x).broadcast.length
      = (sentIn x).length + s.submitters.broadcast.length := List.length_append
  by_cases hret : ∃ r, prog' = .ret r
  · obtain ⟨r, rfl⟩ := hret
    obtain ⟨hload, hoffered⟩ := Relay.load_returns feeType s.relay hvalue r
    have htotal := total_update n t 0
    have hcounted := h.counted.returned feeType t x (r := r) (Nat.zero_le 3)
    refine ⟨Function.update n t 0, hcounted.call, hcounted.limit, hcounted.idle, ?_⟩
    show (answer s.submitters t _ x).broadcast.length + 3 * (s.relay.step feeType _).load
      ≤ 3 * ((s.relay.step feeType (returns t r)).path.offered.length + polls) + _
    rw [hlength, hoffered]
    dsimp only at htotal ⊢
    omega
  · have htotal := total_update n t (n t + (sentIn x).length)
    have hcounted := h.counted.answered (k := n t + (sentIn x).length) x hvalue hnext hlimit
    rw [goOn_of_ne_ret s.relay t hret]
    refine ⟨_, hcounted.call, hcounted.limit, hcounted.idle, ?_⟩
    show (answer s.submitters t _ x).broadcast.length + 3 * s.relay.load ≤ _
    rw [hlength]
    dsimp only at htotal ⊢
    omega

theorem Paid.congr {polls : Nat} {n : Submitter → Nat} {s' : Process} (h : Paid polls n s)
    (hrelay : s'.relay = s.relay) (hcalls : s'.submitters.calls = s.submitters.calls)
    (hbroadcast : s'.submitters.broadcast = s.submitters.broadcast) : Paid polls n s' where
  call := by
    rw [hcalls]
    exact h.call
  limit := h.limit
  idle := by
    rw [hrelay]
    exact h.idle
  balance := by
    rw [hrelay, hbroadcast]
    exact h.balance

theorem Paid.mono {polls polls' : Nat} {n : Submitter → Nat} (h : Paid polls n s)
    (hle : polls ≤ polls') : Paid polls' n s where
  call := h.call
  limit := h.limit
  idle := h.idle
  balance := by
    have hbalance := h.balance
    omega

theorem paid_run (feeType : Fee) (config : Config) (now count : Nat) (as : List Action) :
    ∃ n, Paid (polls as) n (run (step feeType config) (start now count) as) := by
  refine run_history_invariant (step feeType config) (P := fun _ _ => True)
    (I := fun as s => ∃ n, Paid (polls as) n s) ⟨_, paid_start now count⟩ ?_ (along_true _ _ as)
  intro as a hpaid _
  obtain ⟨n, h⟩ := hpaid
  have hinStep := inStep_run feeType config now count as
  have hle : polls as ≤ polls (as ++ [a]) := by
    unfold polls
    rw [List.countP_append]
    exact Nat.le_add_right _ _
  rcases step_cases feeType config (run (step feeType config) (start now count) as) a with heq
      | ⟨b, rfl, hb, heq⟩ | ⟨t, x, prog, prog', -, hanswered, heq⟩ | ⟨_, _, _, -, -, heq⟩
      | ⟨-, -, heq⟩ | ⟨b, count', included, -, -, -, -, hsub, heq⟩ <;> rw [heq]
  · exact ⟨n, h.mono hle⟩
  · have hpolls : polls (as ++ [Action.task b]) = polls as + (Relay.isPoll b).toNat := by
      unfold polls
      rw [List.countP_append]
      cases hb : Relay.isPoll b <;> simp [hb]
    rw [hpolls]
    exact ⟨n, h.task hinStep hb⟩
  · obtain ⟨n', hn'⟩ := h.reply hinStep hanswered
    exact ⟨n', hn'.mono hle⟩
  · exact ⟨n, (h.mono hle).congr rfl rfl rfl⟩
  · exact ⟨n, (h.mono hle).congr rfl rfl rfl⟩
  · exact ⟨n, (h.mono hle).congr rfl (by rw [hsub]) (by rw [hsub])⟩

/-- A call under way is for an event on its way, or for a poll under way. -/
theorem calls_le_load (s : Relay) :
    (callValue s .executor).isSome.toNat + (callValue s .poller).isSome.toNat ≤ s.load := by
  have hexecutor : (executorValue s.path.executor).isSome.toNat ≤ s.path.inFlight.length := by
    unfold EventPath.inFlight
    cases s.path.executor with
    | propagating event value =>
        simp only [executorValue, Executor.inHand_propagating, List.length_append,
          List.length_singleton]
        exact Nat.le_add_right 1 _
    | _ => exact Nat.zero_le _
  have hpoller : (pollerValue s.poller).isSome.toNat ≤ s.poller.work := by
    cases s.poller <;> exact Nat.le_of_ble_eq_true rfl
  exact Nat.add_le_add hexecutor hpoller

theorem Paid.le_calls {polls : Nat} {n : Submitter → Nat} (h : Paid polls n s) (t : Submitter) :
    n t ≤ 3 * (callValue s.relay t).isSome.toNat := by
  cases hvalue : callValue s.relay t with
  | none => exact Nat.le_of_eq (h.idle t hvalue)
  | some value => exact h.limit t

/-- Three broadcasts for an event the listener took or a poll. -/
theorem broadcast_length_le (feeType : Fee) (config : Config) (now count : Nat)
    (as : List Action) :
    let s := run (step feeType config) (start now count) as
    s.submitters.broadcast.length ≤ 3 * (s.relay.path.offered.length + polls as) := by
  obtain ⟨n, h⟩ := paid_run feeType config now count as
  have hbalance := h.balance
  have hexecutor := h.le_calls .executor
  have hpoller := h.le_calls .poller
  have hload := calls_le_load (run (step feeType config) (start now count) as).relay
  dsimp only
  omega

/-! ## The values -/

/-- The estimate of a task. -/
def estimates : Submitter → Felt252 → Relay.Action
  | .executor, overallFee => .estimated (.ok overallFee)
  | .poller, overallFee => .pollEstimated (.ok overallFee)

/-- The task begins a propagation with the value of the fee; an estimate is the
one it is given now. -/
def Begins (feeType : Fee) (config : Config) (t : Submitter) (overallFee : Felt252) (s : Process)
    (a : Action) : Prop :=
  callValue s.relay t = none
    ∧ callValue (s.step feeType config a).relay t
      = some (feeToU256 (attachedFee overallFee feeType))
    ∧ (feeType = .estimate → a = .task (estimates t overallFee))

/-- A propagation with the value began before the end of the run. -/
def Began (feeType : Fee) (config : Config) (s₀ : Process) (as : List Action) (value : U256) :
    Prop :=
  ∃ t overallFee, value = feeToU256 (attachedFee overallFee feeType)
    ∧ Earlier (step feeType config) (Begins feeType config t overallFee) s₀ as

/-- A call is made with the value of the fee. -/
theorem priced_of_newCall {s : Relay} (hest : EstimatesOnly feeType s) {b : Relay.Action}
    {t : Submitter} (h : newCall s (s.step feeType b) t = some value) :
    Priced feeType (fun overallFee => b = estimates t overallFee) value := by
  obtain ⟨hbefore, hafter⟩ := newCall_eq_some h
  have hnone : callValue s t = none := Option.isNone_iff_eq_none.mp hbefore
  cases t with
  | executor =>
      have hmoves := relay_executor_moves s b hest
      have hvalue : executorValue (s.step feeType b).path.executor = some value := hafter
      cases hexecutor : (s.step feeType b).path.executor with
      | propagating event value' =>
          rw [hexecutor] at hmoves hvalue
          obtain rfl := Option.some.inj hvalue
          cases hmoves with
          | inl hsame =>
              rw [show callValue s .executor = some value' from congrArg executorValue hsame.symm]
                at hnone
              cases hnone
          | inr hpriced => exact hpriced
      | _ =>
          rw [hexecutor] at hvalue
          cases hvalue
  | poller =>
      have hmoves := poller_moves s b hest.poller
      have hvalue : pollerValue (s.step feeType b).poller = some value := hafter
      cases hpoller : (s.step feeType b).poller with
      | propagating l1Root value' =>
          rw [hpoller] at hmoves hvalue
          obtain rfl := Option.some.inj hvalue
          cases hmoves with
          | inl hsame =>
              rw [show callValue s .poller = some value' from congrArg pollerValue hsame.symm]
                at hnone
              cases hnone
          | inr hpriced => exact hpriced
      | _ =>
          rw [hpoller] at hvalue
          cases hvalue

section

variable {s₀ : Process} {as : List Action}

theorem Began.snoc (h : Began feeType config s₀ as value) (a : Action) :
    Began feeType config s₀ (as ++ [a]) value := by
  obtain ⟨t, overallFee, hvalue, hearlier⟩ := h
  exact ⟨t, overallFee, hvalue, hearlier.snoc _ a⟩

/-- The transaction is that of an attempt with the value of a propagation that
began. -/
def Accounted (feeType : Fee) (config : Config) (s₀ : Process) (as : List Action)
    (tx : Eip1559Transaction) : Prop :=
  ∃ value, Began feeType config s₀ as value
    ∧ ∃ a, Answers.Affordable a ∧ tx = a.transaction config value

theorem Accounted.snoc {tx : Eip1559Transaction} (h : Accounted feeType config s₀ as tx)
    (a : Action) : Accounted feeType config s₀ (as ++ [a]) tx := by
  obtain ⟨value, hbegan, hmade⟩ := h
  exact ⟨value, hbegan.snoc a, hmade⟩

/-- **The invariant with the past**: whatever value a task or a transaction has, a
propagation began with it. -/
structure Attributed (feeType : Fee) (config : Config) (s₀ : Process) (as : List Action)
    (s : Process) : Prop where
  inStep : InStep config s
  estimates : EstimatesOnly feeType s.relay
  calls : ∀ t value, callValue s.relay t = some value → Began feeType config s₀ as value
  broadcast : ∀ tx ∈ s.submitters.broadcast, Accounted feeType config s₀ as tx

/-- What an answer hands to the node is of an attempt of its call. -/
theorem accounted_of_answered (h : InStep config s) {t : Submitter}
    {x : Exchange Request Response} {prog prog' : Task (Except StateBridgeError Unit)}
    (hanswered : Answered config s t x prog prog') {tx : Eip1559Transaction}
    (htx : tx ∈ sentIn x) :
    ∃ value, callValue s.relay t = some value
      ∧ ∃ a, Answers.Affordable a ∧ tx = a.transaction config value := by
  obtain ⟨value, tr, hvalue, hrun⟩ := h.answered hanswered
  have hprog := hrun.wp (retryLoop_past config value retryDelays [])
  have hallowed := (wp_of_reply? hprog hanswered.reply).1
  obtain ⟨q, answer⟩ := x
  cases q with
  | sendRawTransaction sent =>
      obtain rfl := List.mem_singleton.mp htx
      obtain ⟨a, earlier, hafford, heq, -⟩ := hallowed
      exact ⟨value, hvalue, a, hafford, heq⟩
  | _ => cases htx

end

theorem goOn_estimatesOnly {s : Relay} (h : EstimatesOnly feeType s) (t : Submitter)
    (prog : Task (Except StateBridgeError Unit)) :
    EstimatesOnly feeType (goOn feeType s t prog) := by
  cases prog with
  | ret r => exact h.step (returns t r)
  | _ => exact h

/-- A return begins nothing. -/
theorem callValue_goOn {s : Relay} {t t' : Submitter} {prog : Task (Except StateBridgeError Unit)}
    (h : callValue (goOn feeType s t prog) t' = some value) : callValue s t' = some value := by
  cases prog with
  | ret r =>
      obtain ⟨hnone, hothers, -⟩ := callValue_returns feeType s t r
      by_cases ht : t' = t
      · subst ht
        rw [show callValue (goOn feeType s t' (.ret r)) t' = none from hnone] at h
        cases h
      · exact (hothers t' ht).symm.trans h
  | _ => exact h

/-- A task that is in a propagation after its step was in it, or begins it. -/
theorem began_task {s₀ : Process} {as : List Action}
    (h : Attributed feeType config s₀ as (run (step feeType config) s₀ as)) {b : Relay.Action}
    (hb : isReturn b = false)
    (hstep : ((run (step feeType config) s₀ as).step feeType config (.task b)).relay
      = (run (step feeType config) s₀ as).relay.step feeType b) {t : Submitter}
    (hvalue : callValue ((run (step feeType config) s₀ as).relay.step feeType b) t = some value) :
    Began feeType config s₀ (as ++ [.task b]) value := by
  obtain ⟨hstay, -⟩ := callValue_task feeType (run (step feeType config) s₀ as).relay hb
  cases hbefore : callValue (run (step feeType config) s₀ as).relay t with
  | some value' =>
      obtain rfl := Option.some.inj ((hstay t value' hbefore).symm.trans hvalue)
      exact (h.calls t value' hbefore).snoc _
  | none =>
      have hnew : newCall (run (step feeType config) s₀ as).relay
          ((run (step feeType config) s₀ as).relay.step feeType b) t = some value := by
        rw [newCall, hbefore]
        exact hvalue
      obtain ⟨overallFee, hgiven, rfl⟩ := priced_of_newCall h.estimates hnew
      refine ⟨t, overallFee, rfl, Earlier.last _ ⟨hbefore, ?_, fun hfee => ?_⟩⟩
      · rw [hstep]
        exact hvalue
      · rw [hgiven hfee]

theorem attributed_run (feeType : Fee) (config : Config) (now count : Nat) (as : List Action) :
    Attributed feeType config (start now count) as
      (run (step feeType config) (start now count) as) := by
  refine run_history_invariant (step feeType config) (P := fun _ _ => True)
    (I := fun as s => Attributed feeType config (start now count) as s) ?_ ?_ (along_true _ _ as)
  · refine ⟨inStep_start now count, ⟨?_, ?_⟩, ?_, ?_⟩
    · intro event root h
      cases h
    · intro l1Root root h
      cases h
    · intro t value h
      cases t <;> cases h
    · intro tx h
      cases h
  intro as a h _
  have hinStep : InStep config (step feeType config _ a) := h.inStep.step a
  rcases step_cases feeType config (run (step feeType config) (start now count) as) a with heq
      | ⟨b, rfl, hb, heq⟩ | ⟨t, x, prog, prog', -, hanswered, heq⟩ | ⟨_, _, _, -, -, heq⟩
      | ⟨-, -, heq⟩ | ⟨b, count', included, -, -, -, -, hsub, heq⟩
  case inr.inl =>
    have hstep := congrArg Process.relay heq
    obtain ⟨-, hbroadcast⟩ := calls_callsMade config
      ((run (step feeType config) (start now count) as).relay.step feeType b) h.inStep.idle_iff
    refine ⟨hinStep, ?_, ?_, ?_⟩
    · rw [hstep]
      exact h.estimates.step b
    · intro t value hvalue
      rw [hstep] at hvalue
      exact began_task h hb hstep hvalue
    · intro tx htx
      rw [heq] at htx
      exact (h.broadcast tx (hbroadcast ▸ htx)).snoc _
  case inr.inr.inl =>
    refine ⟨hinStep, ?_, ?_, ?_⟩ <;> rw [heq]
    · exact goOn_estimatesOnly h.estimates t prog'
    · intro t' value hvalue
      exact (h.calls t' value (callValue_goOn hvalue)).snoc a
    · intro tx htx
      rcases List.mem_append.mp htx with hnew | hold
      · obtain ⟨value, hvalue, hmade⟩ := accounted_of_answered h.inStep hanswered hnew
        exact ⟨value, (h.calls t value hvalue).snoc a, hmade⟩
      · exact (h.broadcast tx hold).snoc a
  case inr.inr.inr.inr.inr =>
    refine ⟨hinStep, ?_, ?_, ?_⟩ <;> rw [heq]
    · exact h.estimates
    · exact fun t value hvalue => (h.calls t value hvalue).snoc a
    · rw [hsub]
      exact fun tx htx => (h.broadcast tx htx).snoc a
  all_goals
    -- the tasks and their calls are as they were
    refine ⟨hinStep, ?_, ?_, ?_⟩ <;> rw [heq]
    · exact h.estimates
    · exact fun t value hvalue => (h.calls t value hvalue).snoc a
    · exact fun tx htx => (h.broadcast tx htx).snoc a

/-- The most a propagation attaches, in wei. -/
def feeCap : Fee → Nat
  | .default => 10 ^ 9
  | .estimate => 10 ^ 13
  | .noFee => 0

theorem feeWei_le_feeCap (overallFee : Felt252) (feeType : Fee) :
    feeWei overallFee feeType ≤ feeCap feeType := by
  cases feeType with
  | default => exact Nat.le_refl _
  | estimate => exact Nat.min_le_right ..
  | noFee => exact Nat.le_refl _

theorem sum_le_of_forall_le {txs : List Eip1559Transaction} {cap : Nat}
    (h : ∀ tx ∈ txs, tx.value.toNat ≤ cap) :
    (txs.map fun tx => tx.value.toNat).sum ≤ cap * txs.length := by
  have hsum := List.sum_le_card_nsmul (txs.map fun tx => tx.value.toNat) cap (by simpa using h)
  rwa [List.length_map, Nat.nsmul_eq_mul, Nat.mul_comm] at hsum

/-- **What the service can spend**: in every run each transaction it broadcast is
an attempt within the gas limit, with the value of a fee a task began a
propagation with, for the estimate it was given then; there are three at most for
an event the listener took or a poll; and so the value attached in the whole run
is bounded, whatever the nodes answered. -/
theorem spending_bounded (feeType : Fee) (config : Config) (now count : Nat) (as : List Action) :
    let s := run (step feeType config) (start now count) as
    (∀ tx ∈ s.submitters.broadcast, ∃ t overallFee a,
        Earlier (step feeType config) (Begins feeType config t overallFee) (start now count) as
          ∧ Answers.Affordable a
          ∧ tx = a.transaction config (feeToU256 (attachedFee overallFee feeType)))
      ∧ s.submitters.broadcast.length ≤ 3 * (s.relay.path.offered.length + polls as)
      ∧ (s.submitters.broadcast.map fun tx => tx.value.toNat).sum
        ≤ feeCap feeType * (3 * (s.relay.path.offered.length + polls as)) := by
  have hattributed := attributed_run feeType config now count as
  have hlength := broadcast_length_le feeType config now count as
  refine ⟨fun tx htx => ?_, hlength, ?_⟩
  · obtain ⟨value, ⟨t, overallFee, rfl, hbegan⟩, a, hafford, heq⟩ := hattributed.broadcast tx htx
    exact ⟨t, overallFee, a, hbegan, hafford, heq⟩
  · refine Nat.le_trans (sum_le_of_forall_le fun tx htx => ?_) (Nat.mul_le_mul_left _ hlength)
    obtain ⟨value, ⟨t, overallFee, rfl, -⟩, a, -, rfl⟩ := hattributed.broadcast tx htx
    show (feeToU256 (attachedFee overallFee feeType)).toNat ≤ feeCap feeType
    rw [feeToU256_attachedFee]
    exact feeWei_le_feeCap overallFee feeType

end Process

end WorldIDBridge.Service
