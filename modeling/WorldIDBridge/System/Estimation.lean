import WorldIDBridge.L2.Authority
import WorldIDBridge.Lib.HeadOfLine
import WorldIDBridge.System.Network

/-!
# The message whose fee is estimated

In the fee mode `Estimate` the relayer has the L2 node run `receive_root`
before it propagates. The message it makes up for that is the one the bridge
will send for the root, so the estimate fails for the roots StarkWorldID
refuses. The executor does not survive that: an event whose root is on L2
already ends it, with all events behind it.
-/

namespace WorldIDBridge

open Checked L1 L2 L2.StarkWorldID TransitionRun

namespace Service

/-! ## The message -/

structure BridgeAddressBook where
  bridgeL1 : EthAddress
  bridgeL2 : Felt252
  deriving DecidableEq, Repr

/-- A message as `estimate_message_fee` takes it. -/
structure MsgFromL1 where
  fromAddress : EthAddress
  toAddress : Felt252
  entryPointSelector : Felt252
  payload : List Felt252
  deriving DecidableEq, Repr

/-- `HANDLE_RECEIVE_ROOT_SELECTOR`. -/
def handleReceiveRootSelector : Felt252 :=
  0x01ec02fa6378eca6ce8f976f7e74ad1a2241692571db908bc34270508d025cf4

def BridgeAddressBook.buildMsgFromL1 (book : BridgeAddressBook) (root : List Felt252) :
    MsgFromL1 where
  fromAddress := book.bridgeL1
  toAddress := book.bridgeL2
  entryPointSelector := handleReceiveRootSelector
  payload := root

/-- What the contract at `to_address` is called with. -/
def MsgFromL1.handlerMessage (m : MsgFromL1) : L1HandlerMessage :=
  ⟨m.fromAddress.toFelt, m.entryPointSelector, m.payload⟩

/-- The two contracts the relayer is configured with. -/
def BridgeAddressBook.accounts (book : BridgeAddressBook) : Accounts :=
  ⟨book.bridgeL1, feltToU256 book.bridgeL2⟩

/-- The message for a root is the `receive_root` message of that root. -/
theorem handlerMessage_buildMsgFromL1 (book : BridgeAddressBook) (root : U256) :
    (book.buildMsgFromL1 (intoFelt root)).handlerMessage
      = (HandlerCall.receiveRoot root).message book.bridgeL1.toFelt := by
  have hpayload : intoFelt root = Serde.serialize root :=
    Except.ok.inj ((Utils.intoFelt_total root).symm.trans (Utils.intoFelt_eq root))
  rw [MsgFromL1.handlerMessage, BridgeAddressBook.buildMsgFromL1, hpayload]
  rfl

end Service

open Service

/-! ## What an estimate tells -/

/-- A message that is accepted leaves its trace. -/
theorem L2.Chain.deliver_ne_iff {c : Chain} {d : Delivery} :
    c.deliver d ≠ c ↔ d.Accepted c.storage := by
  constructor
  · intro hne
    by_contra hrejected
    exact hne (Chain.deliver_of_not_accepted hrejected)
  · intro haccepted hsame
    obtain ⟨call, hdec, howner, hguard⟩ := Delivery.accepted_iff.mp haccepted
    have hlog := congrArg Chain.accepted hsame
    rw [Chain.deliver_of_accepts ⟨hdec, howner, hguard⟩] at hlog
    exact absurd (congrArg List.length hlog) (by simp)

/-- The message for a root runs if the bridge is obeyed and the root is new. -/
theorem accepted_buildMsgFromL1_iff (book : BridgeAddressBook) (root : U256) {c : Chain}
    {now : U64} :
    (⟨now, (book.buildMsgFromL1 (intoFelt root)).handlerMessage⟩ : Delivery).Accepted c.storage
      ↔ c.storage.Obeys book.bridgeL1.toFelt ∧ c.storage.worldID.rootHistory root = 0 := by
  rw [handlerMessage_buildMsgFromL1,
    Delivery.accepted_iff_of_decode (HandlerCall.decode_message _ _)]
  rfl

/-- **What is estimated is what is sent**: the call of `propagateRoot` that
carries a root logs, for StarkWorldID, the very message the relayer made up
for it; so on any state of L2 the estimate goes through exactly when the
delivery would be accepted, which is when the bridge is obeyed and the root
is new. -/
theorem estimated_message_sent (book : BridgeAddressBook)
    {bridge : StarkStateBridge.Storage} {w : World} {msg : Msg} {o : StarkStateBridge.Outcome}
    {root : U256}
    (hexec : StarkStateBridge.exec bridge book.bridgeL1 w msg .propagateRoot = .ok o)
    (hcore : bridge.starknetCoreContract = w.coreAddress)
    (haddr : bridge.starkWorldIDAddress = book.accounts.worldID)
    (hroot : w.latestRoot bridge.worldIDIdentityManager = some root) :
    let m := book.buildMsgFromL1 (intoFelt root)
    ∃ log, o.logs = [log] ∧ log.fromAddress = m.fromAddress
      ∧ log.toAddress = feltToU256 m.toAddress ∧ log.toL2 = some m.handlerMessage
      ∧ ∀ (c : Chain) (estimated delivered : U64),
        ((⟨estimated, m.handlerMessage⟩ : Delivery).Accepted c.storage
            ↔ System.receive book.accounts c log delivered ≠ c)
          ∧ ((⟨estimated, m.handlerMessage⟩ : Delivery).Accepted c.storage
            ↔ c.storage.Obeys book.bridgeL1.toFelt
              ∧ c.storage.worldID.rootHistory root = 0) := by
  intro m
  have hrequest : StarkStateBridge.request bridge w .propagateRoot
      = some (L1.handleReceiveRootSelector, splitPayload root) := by
    rw [StarkStateBridge.request, hroot]
    rfl
  let log := StarkStateBridge.logOf bridge book.bridgeL1 w msg L1.handleReceiveRootSelector
    (splitPayload root)
  have hmessage : log.toL2 = some m.handlerMessage := by
    rw [handlerMessage_buildMsgFromL1]
    exact toL2_receiveRoot rfl rfl
  have hto : log.toAddress = book.accounts.worldID := haddr
  refine ⟨log, StarkStateBridge.logs_of_core hexec hcore hrequest, rfl, hto, hmessage, ?_⟩
  intro c estimated delivered
  have hiff : ∀ now : U64, (⟨now, m.handlerMessage⟩ : Delivery).Accepted c.storage
      ↔ c.storage.Obeys book.bridgeL1.toFelt ∧ c.storage.worldID.rootHistory root = 0 :=
    fun _ => accepted_buildMsgFromL1_iff book root
  refine ⟨?_, hiff estimated⟩
  have hreceive : System.receive book.accounts c log delivered
      = c.deliver ⟨delivered, m.handlerMessage⟩ := by
    rw [System.receive, if_pos hto, hmessage]
  rw [hreceive, Chain.deliver_ne_iff, hiff estimated, hiff delivered]

/-- The address book of the sample accounts. -/
def sampleBook : BridgeAddressBook := ⟨7, 3⟩

/-- The message of the first root of the sample bridge runs on L2, and arrives. -/
theorem estimated_message_sent_sample :
    ∃ log : LogMessageToL2,
      log.toL2 = some (sampleBook.buildMsgFromL1 (intoFelt 5)).handlerMessage
        ∧ System.receive sampleBook.accounts Chain.sample log 100 ≠ Chain.sample := by
  have hexec : StarkStateBridge.exec System.sampleDeployed.bridge sampleBook.bridgeL1
      System.sampleDeployed.world ⟨9, 10⟩ .propagateRoot = .ok _ := rfl
  have hroot : System.sampleDeployed.world.latestRoot
      System.sampleDeployed.bridge.worldIDIdentityManager = some 5 := rfl
  obtain ⟨log, -, -, -, hmessage, hiff⟩ := estimated_message_sent sampleBook hexec rfl rfl hroot
  obtain ⟨harrives, hruns⟩ := hiff Chain.sample 100 100
  exact ⟨log, hmessage, harrives.mp (hruns.mpr ⟨⟨by decide, rfl⟩, rfl⟩)⟩

/-! ## The events behind a root that is known -/

namespace Service.EventPath

open HeadOfLine

/-- The line of the executor: an event is served with the attempt to propagate
its root. -/
def line : Line EventPath TreeChanged where
  waiting := pending
  served s := s.attempted.map Prod.fst
  stopped s := ∃ result, s.executor = .exited result

/-- The receiver is dropped with the executor only, and what is estimated is
the root of the event in hand. -/
structure Tended (s : EventPath) : Prop where
  receiver : s.channel.receiverGone = true → ∃ result, s.executor = .exited result
  root : ∀ event root, s.executor = .estimating event root → root = intoFelt event.postRoot

/-- If the step is the end of an estimate, the event is one the estimate can
go through for. -/
def EstimateOf (servable : TreeChanged → Prop) (s : EventPath) : Action → Prop
  | .estimated (.ok _) => ∀ event root, s.executor = .estimating event root → servable event
  | _ => True

theorem tended_start : Tended start := by
  constructor
  · intro h
    cases h
  · intro event root h
    cases h

theorem Tended.sendEvent {s : EventPath} (h : Tended s) (event : TreeChanged) :
    Tended (s.sendEvent event) := by
  constructor
  · rw [receiverGone_sendEvent, executor_sendEvent]
    exact h.receiver
  · rw [executor_sendEvent]
    exact h.root

/-- A send: the event joins the line as long as the executor is there. The
listener held nothing, or the same event. -/
theorem Tended.line_sendEvent {servable : TreeChanged → Prop} {s s₀ : EventPath} (h : Tended s)
    {event : TreeChanged} {held : List TreeChanged} (hheld : held = [] ∨ held = [event])
    (hexecutor : s₀.executor = s.executor) (hattempted : s₀.attempted = s.attempted)
    (hpending : s₀.pending = s.executor.held ++ (s.channel.items ++ held)) :
    line.Step servable s₀ (s.sendEvent event) := by
  by_cases hstopped : line.stopped s₀
  · refine .stop ?_ ?_
    · show ∃ result, (s.sendEvent event).executor = .exited result
      rw [executor_sendEvent, ← hexecutor]
      exact hstopped
    · show (s.sendEvent event).attempted.map Prod.fst = s₀.attempted.map Prod.fst
      rw [attempted_sendEvent, hattempted]
  · have hopen : ¬ s.channel.receiverGone = true := by
      intro hgone
      obtain ⟨result, hexit⟩ := h.receiver hgone
      exact hstopped ⟨result, hexecutor.trans hexit⟩
    have hafter : (s.sendEvent event).pending
        = s.executor.held ++ (s.channel.items ++ [event]) := by
      rw [pending, queued_sendEvent, executor_sendEvent, if_neg hopen]
    have hserved : line.served (s.sendEvent event) = line.served s₀ := by
      show (s.sendEvent event).attempted.map Prod.fst = s₀.attempted.map Prod.fst
      rw [attempted_sendEvent, hattempted]
    rcases hheld with rfl | rfl
    · refine .arrive [event] hstopped ?_ hserved
      show (s.sendEvent event).pending = s₀.pending ++ [event]
      rw [hafter, hpending]
      simp
    · refine .arrive [] hstopped ?_ hserved
      show (s.sendEvent event).pending = s₀.pending ++ []
      rw [hafter, hpending, List.append_nil]

/-- A step of the two tasks when the fee is estimated. -/
theorem Tended.step_line {servable : TreeChanged → Prop} {s : EventPath} (h : Tended s) {a : Action}
    (hest : EstimateOf servable s a) :
    Tended (s.step .estimate a) ∧ line.Step servable s (s.step .estimate a) := by
  have hsame : Tended s ∧ line.Step servable s s := ⟨h, .same rfl rfl id⟩
  obtain ⟨listener, channel, executor, offered, attempted⟩ := s
  cases a with
  | send event =>
      cases listener with
      | listening =>
          have hoffer : Tended ⟨.listening, channel, executor, offered ++ [event], attempted⟩ :=
            ⟨h.receiver, h.root⟩
          exact ⟨hoffer.sendEvent event, hoffer.line_sendEvent (.inl rfl) rfl rfl rfl⟩
      | _ => exact hsame
  | sendAgain =>
      cases listener with
      | sending event => exact ⟨h.sendEvent event, h.line_sendEvent (.inr rfl) rfl rfl rfl⟩
      | _ => exact hsame
  | giveUp =>
      cases listener with
      | listening => exact ⟨⟨h.receiver, h.root⟩, .same rfl rfl id⟩
      | _ => exact hsame
  | recv =>
      cases executor with
      | receiving =>
          simp only [step]
          split
          · rename_i event channel' hrecv
            have hrunning : ¬ ∃ result, Executor.receiving = .exited result := by simp
            refine ⟨⟨?_, ?_⟩, .same ?_ rfl fun hstopped => absurd hstopped hrunning⟩
            · intro hgone
              exact absurd (h.receiver ((Mpsc.receiverGone_of_recv? hrecv).symm.trans hgone)) hrunning
            · intro event' root hroot
              cases hroot
              rfl
            · show [event] ++ (channel'.items ++ listener.held)
                = [] ++ (channel.items ++ listener.held)
              rw [Mpsc.items_of_recv? hrecv]
              rfl
          · split
            · refine ⟨⟨fun _ => ⟨_, rfl⟩, ?_⟩, .stop ⟨_, rfl⟩ rfl⟩
              intro event root hroot
              cases hroot
            · exact hsame
      | _ => exact hsame
  | estimated outcome =>
      cases executor with
      | estimating event root =>
          cases outcome with
          | ok overallFee =>
              have hrunning : ¬ ∃ result, Executor.estimating event root = .exited result := by simp
              refine ⟨⟨fun hgone => absurd (h.receiver hgone) hrunning, ?_⟩,
                .serve event hrunning (hest event root rfl) rfl List.map_append⟩
              intro event' root' hroot
              cases hroot
          | error e =>
              refine ⟨⟨fun _ => ⟨_, rfl⟩, ?_⟩, .stop ⟨_, rfl⟩ rfl⟩
              intro event' root' hroot
              cases hroot
      | _ => cases outcome <;> exact hsame
  | propagated outcome =>
      cases executor with
      | propagating event value =>
          cases outcome with
          | ok _ =>
              have hrunning : ¬ ∃ result, Executor.propagating event value = .exited result := by simp
              refine ⟨⟨fun hgone => absurd (h.receiver hgone) hrunning, ?_⟩,
                .same rfl rfl fun hstopped => absurd hstopped hrunning⟩
              intro event' root hroot
              cases hroot
          | error e =>
              refine ⟨⟨fun _ => ⟨_, rfl⟩, ?_⟩, .stop ⟨_, rfl⟩ rfl⟩
              intro event' root' hroot
              cases hroot
      | _ => cases outcome <;> exact hsame

end Service.EventPath

/-- The path of a relay that estimates its fees. -/
theorem Service.Relay.tended_step {servable : TreeChanged → Prop} {s : Relay}
    (h : s.path.Tended) {a : Relay.Action}
    (hest : ∀ outcome, a = .estimated outcome → s.path.EstimateOf servable (.estimated outcome)) :
    (s.step .estimate a).path.Tended
      ∧ EventPath.line.Step servable s.path (s.step .estimate a).path := by
  rcases Relay.path_step .estimate s a with hsame | ⟨b, -, hb, hnext⟩ | ⟨event, -, -, hnext⟩
  · rw [hsame]
    exact ⟨h, .same rfl rfl id⟩
  · rw [hnext]
    refine h.step_line ?_
    cases b with
    | estimated outcome => exact hest outcome (hb outcome rfl)
    | _ => trivial
  · rw [hnext]
    exact h.step_line (a := .send event) trivial

/-! ### What L2 knows stays known -/

/-- A root that is in the history keeps its timestamp, whatever is delivered. -/
theorem L2.Chain.rootHistory_deliver {c : Chain} {root : U256}
    (hroot : c.storage.worldID.rootHistory root ≠ 0) (d : Delivery) :
    (c.deliver d).storage.worldID.rootHistory root = c.storage.worldID.rootHistory root := by
  rcases Chain.deliver_cases c d with ⟨hsame, -⟩ | ⟨call, hacc, hnext⟩
  · rw [hsame]
  · rw [hnext]
    cases call with
    | receiveRoot r =>
        have hne : root ≠ r := by
          intro heq
          subst heq
          exact hroot hacc.guard
        exact Function.update_of_ne hne _ _
    | _ => rfl

/-- StarkWorldID has the root in its history. -/
def System.Knows (s : System) (root : U256) : Prop :=
  ∃ c, s.worldID = some c ∧ c.storage.worldID.rootHistory root ≠ 0

/-- What holds of the deployed contract after any message holds after any
action. -/
theorem System.step_of_deliver {acc : Accounts} {I : Chain → Prop} {s : System}
    (h : ∃ c, s.worldID = some c ∧ I c) (hdeliver : ∀ c d, I c → I (c.deliver d)) (a : Action) :
    ∃ c, (System.step acc s a).worldID = some c ∧ I c := by
  obtain ⟨c, hc, hI⟩ := h
  cases System.step_onL2 acc s a with
  | same hsame => exact ⟨c, hsame.trans hc, hI⟩
  | deployed _ hbefore =>
      rw [hc] at hbefore
      cases hbefore
  | @delivered i timestamp c' log _ hbefore _ _ hnext =>
      rw [hc] at hbefore
      obtain rfl := Option.some.inj hbefore
      refine ⟨_, hnext, ?_⟩
      rw [System.receive]
      split
      swap
      · exact hI
      cases log.toL2 with
      | none => exact hI
      | some m => exact hdeliver c ⟨timestamp, m⟩ hI

theorem System.Knows.step {acc : Accounts} {s : System} {root : U256} (h : s.Knows root)
    (a : Action) : (System.step acc s a).Knows root := by
  refine System.step_of_deliver h (fun c d hc => ?_) a
  rw [Chain.rootHistory_deliver hc]
  exact hc

/-! ### The executor between the chains -/

namespace Network

variable (book : BridgeAddressBook)

/-- The L2 node answers an estimate only if the message runs on its latest
state. -/
def EstimatesTruly (s : Network) : Action → Prop
  | .relay (.estimated (.ok _)) => ∀ event root,
      s.relay.path.executor = .estimating event root →
        ∃ c now, s.chains.worldID = some c
          ∧ (⟨now, (book.buildMsgFromL1 root).handlerMessage⟩ : Delivery).Accepted c.storage
  | _ => True

/-- The root of the event is new to L2. -/
def NewOnL2 (s : Network) (event : TreeChanged) : Prop :=
  ∃ c, s.chains.worldID = some c ∧ c.storage.worldID.rootHistory event.postRoot = 0

/-- The line of the executor between the chains. -/
def line : HeadOfLine.Line Network TreeChanged := EventPath.line.comap fun s => s.relay.path

variable {book} {env : Setting} {s : Network} {root : U256}

theorem tended_step (hfee : env.feeType = .estimate) (h : s.relay.path.Tended) {a : Action}
    (htrue : EstimatesTruly book s a) :
    (s.step env a).relay.path.Tended ∧ line.Step s.NewOnL2 s (s.step env a) := by
  have hrelay : ∀ b, (∀ outcome, b = .estimated outcome → a = .relay b) →
      (s.relay.step env.feeType b).path.Tended
        ∧ EventPath.line.Step s.NewOnL2 s.relay.path (s.relay.step env.feeType b).path := by
    intro b hb
    rw [hfee]
    refine Relay.tended_step h fun outcome houtcome => ?_
    obtain rfl := hb outcome houtcome
    subst houtcome
    cases outcome with
    | error e => trivial
    | ok overallFee =>
        -- the message runs, so its root is new
        intro event root hexecutor
        obtain ⟨c, now, hc, haccepted⟩ := htrue event root hexecutor
        rw [h.root event root hexecutor, accepted_buildMsgFromL1_iff] at haccepted
        exact ⟨c, hc, haccepted.2⟩
  have hsame : ∀ s' : Network, s'.relay = s.relay →
      s'.relay.path.Tended ∧ line.Step s.NewOnL2 s s' := by
    intro s' heq
    rw [heq]
    refine ⟨h, .same ?_ ?_ ?_⟩
    · exact congrArg (fun r => EventPath.pending r.path) heq
    · exact congrArg (fun r => r.path.attempted.map Prod.fst) heq
    · intro hstopped
      obtain ⟨result, hexit⟩ := hstopped
      exact ⟨result, (congrArg (fun r => r.path.executor) heq).trans hexit⟩
  cases a with
  | change postRoot => exact hsame _ rfl
  | log =>
      simp only [Network.step]
      split
      · rename_i event unseen _ _
        have hother : ∀ outcome, Relay.Action.event event = .estimated outcome →
            Action.log = .relay (.event event) := by
          intro outcome h
          cases h
        obtain ⟨htended, hline⟩ := hrelay (.event event) hother
        exact ⟨htended, .comap hline⟩
      · exact hsame _ rfl
  | miss => exact hsame _ rfl
  | relay b =>
      simp only [Network.step]
      split
      · obtain ⟨htended, hline⟩ := hrelay b fun _ _ => rfl
        exact ⟨htended, .comap hline⟩
      · exact hsame _ rfl
  | broadcast =>
      simp only [Network.step]
      split <;> exact hsame _ rfl
  | mine i =>
      simp only [Network.step]
      split <;> exact hsame _ rfl
  | deliver i timestamp => exact hsame _ rfl

theorem knows_step (h : s.chains.Knows root) (a : Action) :
    (s.step env a).chains.Knows root := by
  cases a with
  | deliver i timestamp => exact h.step (.deliver i timestamp)
  | change postRoot =>
      show (System.step env.accounts s.chains (.environment _ _)).Knows root
      exact h.step _
  | mine i =>
      simp only [Network.step]
      split
      · exact h.step (.call _ _)
      · exact h
  | miss => exact h
  | _ =>
      simp only [Network.step]
      split <;> exact h

end Network

open Network in
/-- **A root that L2 knows ends the event path**: in the fee mode `Estimate`,
if at some point an event waits whose root StarkWorldID has, then the executor
never attempts it, nor anything behind it, whatever happens afterwards on
either chain; the events it still attempts are the first of those ahead. -/
theorem known_root_blocks_events (book : BridgeAddressBook) {env : Setting} {s₀ : Network}
    {now : Nat} (hstart : s₀.relay = .start now) (hfee : env.feeType = .estimate)
    (as bs : List Network.Action)
    (htrue : Along (step env) (EstimatesTruly book) s₀ (as ++ bs))
    {ahead behind : List TreeChanged} {event : TreeChanged}
    (hqueue : (run (step env) s₀ as).relay.path.pending = ahead ++ event :: behind)
    (hknown : (run (step env) s₀ as).chains.Knows event.postRoot) :
    let s := run (step env) s₀ as
    let s' := run (step env) s₀ (as ++ bs)
    ∃ done, s'.relay.path.attempted.map Prod.fst = s.relay.path.attempted.map Prod.fst ++ done
      ∧ done <+: ahead
      ∧ ((∃ result, s'.relay.path.executor = .exited result)
        ∨ ∃ rest behind', ahead = done ++ rest
            ∧ s'.relay.path.pending = rest ++ event :: behind') := by
  intro s s'
  obtain ⟨hbefore, hafter⟩ := (along_append (step env)).mp htrue
  have htended : s.relay.path.Tended := by
    refine run_invariant (step env) (I := fun s : Network => s.relay.path.Tended)
      (fun _ _ h ha => (tended_step hfee h ha).1) ?_ hbefore
    rw [hstart]
    exact EventPath.tended_start
  obtain ⟨done, hblocked⟩ := HeadOfLine.Line.blocked_run (L := Network.line) (step env) NewOnL2
    (I := fun s => s.relay.path.Tended ∧ s.chains.Knows event.postRoot)
    (P := EstimatesTruly book)
    (fun _ a h ha => ⟨(tended_step hfee h.1 ha).1, knows_step h.2 a⟩)
    (fun _ _ h ha => (tended_step hfee h.1 ha).2)
    (fun s h hnew => by
      obtain ⟨c, hc, hroot⟩ := h.2
      obtain ⟨c', hc', hroot'⟩ := hnew
      rw [hc] at hc'
      obtain rfl := Option.some.inj hc'
      exact hroot hroot')
    ⟨htended, hknown⟩ hqueue hafter
  have hrun : run (step env) s bs = s' := (run_append (step env) s₀ as bs).symm
  rw [hrun] at hblocked
  exact ⟨done, hblocked.served, hblocked.reached, hblocked.waiting⟩

namespace Network

/-- A relayer that estimates its fees. Two roots are set before the transaction
for the first is included; the message carries the second. -/
def estimatedInclusion : List Action :=
  [.change 6, .change 7, .log, .log, .relay .recv, .relay (.estimated (.ok 10)), .broadcast,
    .mine 0, .relay (.propagated (.ok ())), .deliver 0 100]

/-- The second event fails, and a third is never looked at. -/
def estimatesAgain : List Action :=
  [.relay .recv, .relay (.estimated (.error "reverted")), .change 8, .log, .relay .recv]

theorem known_root_blocks_events_sample :
    (run (step { sampleSetting with feeType := .estimate }) sampleStart
        (estimatedInclusion ++ estimatesAgain)).relay.path.attempted.map Prod.fst = [⟨6⟩] := by
  have htrue : Along (step { sampleSetting with feeType := .estimate }) (EstimatesTruly sampleBook)
      sampleStart (estimatedInclusion ++ estimatesAgain) := by
    refine ⟨trivial, trivial, trivial, trivial, trivial, ?_, trivial, trivial, trivial, trivial,
      trivial, trivial, trivial, trivial, trivial, trivial⟩
    intro event root hexecutor
    cases hexecutor
    exact ⟨L2.Chain.sample, 99, rfl,
      (accepted_buildMsgFromL1_iff sampleBook 6).mpr ⟨⟨by decide, rfl⟩, rfl⟩⟩
  have hstart : sampleStart.relay = .start 0 := rfl
  have hqueue : (run (step { sampleSetting with feeType := .estimate }) sampleStart
      estimatedInclusion).relay.path.pending = [] ++ ⟨7⟩ :: [] := rfl
  have hknown : (run (step { sampleSetting with feeType := .estimate }) sampleStart
      estimatedInclusion).chains.Knows 7 := ⟨_, rfl, by decide⟩
  obtain ⟨done, hattempted, hreached, -⟩ := known_root_blocks_events sampleBook hstart rfl
    estimatedInclusion estimatesAgain htrue hqueue hknown
  rw [hattempted, List.prefix_nil.mp hreached]
  rfl

end Network

end WorldIDBridge
