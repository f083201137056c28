import WorldIDBridge.L2.Validity
import WorldIDBridge.System.Provenance

/-!
# One call and the delivery of its message

What the system makes of a single call of the bridge whose message is then
delivered: a root becomes the latest root on L2 unless the history has it
already, and an expiry never arrives.
-/

namespace WorldIDBridge

open L1 L2 L2.StarkWorldID TransitionRun

namespace System

variable {acc : Accounts}

/-- The message of a call that succeeds reaches L2 when it is delivered. -/
theorem worldID_call_deliver {s : System} {msg : Msg} {call : BridgeCall}
    {o : StarkStateBridge.Outcome} {log : LogMessageToL2} {c : Chain}
    (hexec : StarkStateBridge.exec s.bridge acc.bridge s.world msg call = .ok o)
    (hlogs : o.logs = [log]) (hc : s.worldID = some c) (timestamp : U64) :
    (step acc (step acc s (.call msg call))
        (.deliver s.channel.sent.length timestamp)).worldID
      = some (receive acc c log timestamp) := by
  have hcall : step acc s (.call msg call)
      = ⟨o.bridge, o.world, s.channel.send [log], s.worldID⟩ := by
    simp only [step, hexec, hlogs]
  have hflight := s.channel.inFlight_send log
  rw [hcall]
  simp only [step, hc, Channel.sent_send, List.getElem?_concat_length, dif_pos hflight]

/-! ## Reachable states -/

/-- A delivery is in a block of a positive timestamp. -/
def PositiveTime : Action → Prop
  | .deliver _ timestamp => 0 < timestamp.toNat
  | _ => True

/-- The states of every run from the deployment of the bridge. -/
def Reachable (acc : Accounts) (s : System) : Prop :=
  ∃ s₀ as, Start s₀ ∧ (∀ a ∈ as, PositiveTime a) ∧ s = run (step acc) s₀ as

theorem receive_abstracts {c : Chain} {g : Registry U256} (h : Chain.Abstracts c g)
    (log : LogMessageToL2) {timestamp : U64} (ht : 0 < timestamp.toNat) :
    ∃ g', Chain.Abstracts (receive acc c log timestamp) g' := by
  rw [receive]
  split
  swap
  · exact ⟨g, h⟩
  cases log.toL2 with
  | none => exact ⟨g, h⟩
  | some m =>
      obtain ⟨g', h', -⟩ := Chain.deliver_abstracts h (d := ⟨timestamp, m⟩) ht
      exact ⟨g', h'⟩

/-- The contract on L2 holds a register in every reachable state. -/
theorem Reachable.abstracts {s : System} (h : Reachable acc s) {c : Chain}
    (hc : s.worldID = some c) : ∃ g, Chain.Abstracts c g := by
  obtain ⟨s₀, as, hstart, hpos, rfl⟩ := h
  refine run_invariant (step acc)
    (I := fun s => ∀ c, s.worldID = some c → ∃ g, Chain.Abstracts c g)
    (P := fun _ a => PositiveTime a) ?_ (by simp [hstart.worldID])
    (along_of_forall _ hpos) c hc
  intro s a ih ha
  cases step_onL2 acc s a with
  | same hsame => exact hsame ▸ ih
  | deployed _ _ hdeploy hnext =>
      rw [hnext]
      rintro c' ⟨⟩
      exact ⟨_, Chain.deploy_abstracts hdeploy⟩
  | delivered haction hbefore _ _ hnext =>
      subst haction
      rw [hnext]
      rintro c' ⟨⟩
      obtain ⟨g, hg⟩ := ih _ hbefore
      exact receive_abstracts hg _ ha

/-! ## A root -/

/-- The message of a successful `propagateRoot` of a bridge configured for
StarkWorldID carries the identity manager's root. -/
theorem propagateRoot_log {s : System} {msg : Msg} {o : StarkStateBridge.Outcome}
    (hexec : StarkStateBridge.exec s.bridge acc.bridge s.world msg .propagateRoot = .ok o)
    (hcore : s.bridge.starknetCoreContract = s.world.coreAddress)
    (haddr : s.bridge.starkWorldIDAddress = acc.worldID) {root : U256}
    (hroot : s.world.latestRoot s.bridge.worldIDIdentityManager = some root) :
    ∃ log, o.logs = [log] ∧ rootOf acc log = some root := by
  have hreq : StarkStateBridge.request s.bridge s.world .propagateRoot
      = some (handleReceiveRootSelector, splitPayload root) := by
    rw [StarkStateBridge.request, hroot]
    rfl
  refine ⟨_, StarkStateBridge.logs_of_core hexec hcore hreq, ?_⟩
  exact rootOf_eq_some.mpr ⟨⟨rfl, haddr⟩, _, toL2_receiveRoot rfl rfl,
    HandlerCall.decode_message _ _⟩

/-- **Resynchronisation, up to the write-once guard**: a propagated root that
L2 never accepted becomes its latest root; one it accepted before, in any
past, is refused and nothing changes. -/
theorem propagate_deliver {s : System} (hreach : Reachable acc s) {c : Chain}
    (hc : s.worldID = some c) (howner : c.storage.crossDomainOwnable.l1Owner = acc.bridge)
    (hbridge : acc.bridge ≠ 0)
    (hcore : s.bridge.starknetCoreContract = s.world.coreAddress)
    (haddr : s.bridge.starkWorldIDAddress = acc.worldID) {root : U256}
    (hroot : s.world.latestRoot s.bridge.worldIDIdentityManager = some root) {msg : Msg}
    {o : StarkStateBridge.Outcome}
    (hexec : StarkStateBridge.exec s.bridge acc.bridge s.world msg .propagateRoot = .ok o)
    (timestamp : U64) :
    ∃ c', (step acc (step acc s (.call msg .propagateRoot))
          (.deliver s.channel.sent.length timestamp)).worldID = some c'
      ∧ ((∀ t, (t, .receiveRoot root) ∉ c.accepted) →
          c'.lastReceived = some root ∧ c'.storage.worldID.latestRoot = root
            ∧ (root ≠ 0 → WorldID.latestRoot c'.storage.worldID = .ok root))
      ∧ ((∃ t, (t, .receiveRoot root) ∈ c.accepted) →
          c' = c ∧ (HandlerCall.receiveRoot root).exec c.storage acc.bridge.toFelt timestamp
            = .error .cannotOverwriteRoot) := by
  obtain ⟨g, hg⟩ := hreach.abstracts hc
  obtain ⟨log, hlogs, hlog⟩ := propagateRoot_log hexec hcore haddr hroot
  refine ⟨_, worldID_call_deliver hexec hlogs hc timestamp, fun hnever => ?_, fun hknown => ?_⟩
  · -- never accepted: the handler's guard holds
    have hfresh := hg.history_eq_zero_iff_never.mpr hnever
    rw [receive_fresh hlog howner hbridge hfresh]
    refine ⟨rfl, rfl, fun hne => ?_⟩
    rw [WorldID.latestRoot_eq]
    exact if_neg hne
  · -- accepted before: the sender is obeyed, and the guard refuses the root
    have hset : c.storage.worldID.rootHistory root ≠ 0 := by
      rw [ne_eq, hg.history_eq_zero_iff_never]
      exact fun hnever => hknown.elim hnever
    exact ⟨receive_known hlog hset timestamp,
      (HandlerCall.receiveRoot_refused_iff (obeys_bridge howner hbridge) root timestamp).mpr hset⟩

/-- The sample bridge with StarkWorldID deployed, before any root. -/
def sampleDeployed : System := step sampleAccounts sampleStart (.deploy 7 20)

theorem reachable_sampleDeployed : Reachable sampleAccounts sampleDeployed :=
  ⟨sampleStart, [.deploy 7 20], start_sample, by simp [PositiveTime], rfl⟩

theorem propagate_deliver_sample :
    ∃ c, (step sampleAccounts (step sampleAccounts sampleDeployed
        (.call ⟨9, 10⟩ .propagateRoot)) (.deliver 0 100)).worldID = some c
      ∧ c.storage.worldID.latestRoot = 5 := by
  have hroot : sampleDeployed.world.latestRoot
      sampleDeployed.bridge.worldIDIdentityManager = some 5 := rfl
  have hexec : StarkStateBridge.exec sampleDeployed.bridge sampleAccounts.bridge
      sampleDeployed.world ⟨9, 10⟩ .propagateRoot = .ok _ := rfl
  obtain ⟨c, hc, hnew, -⟩ := propagate_deliver reachable_sampleDeployed
    (c := Chain.sample) rfl rfl (by decide) rfl rfl hroot hexec 100
  exact ⟨c, hc, (hnew (fun t => List.not_mem_nil)).2.1⟩

/-- The roots `5`, `6` and `5` again on L1, each propagated and delivered. -/
def sampleReturn : List Action :=
  [.deploy 7 20, .call ⟨9, 10⟩ .propagateRoot, .deliver 0 100,
    .environment (fun _ => some 6) (fun _ => false),
    .call ⟨9, 10⟩ .propagateRoot, .deliver 1 101,
    .environment (fun _ => some 5) (fun _ => false),
    .call ⟨9, 10⟩ .propagateRoot, .deliver 2 102]

/-- A root that returns on L1 does not return on L2. -/
theorem returning_root_refused :
    let s := run (step sampleAccounts) sampleStart sampleReturn
    s.world.latestRoot s.bridge.worldIDIdentityManager = some 5
      ∧ s.channel.delivered = [2, 1, 0]
      ∧ s.worldID.map (fun c => c.storage.worldID.latestRoot) = some 6 :=
  ⟨rfl, rfl, rfl⟩

/-! ## An expiry -/

/-- The message is a `set_root_history_expiry` call of the value `e`. -/
def ExpiryArrives (log : LogMessageToL2) (e : U256) : Prop :=
  ∃ m x, log.toL2 = some m ∧ m.decode = .ok (.setRootHistoryExpiry x) ∧ x.val = e.toNat

/-- **No expiry arrives**: whatever value a successful `setRootHistoryExpiry`
is given, its message has one word too many for the handler, and delivering
it changes nothing. -/
theorem setRootHistoryExpiry_never_arrives {bridge : StarkStateBridge.Storage}
    {this : EthAddress} {w : World} {msg : Msg} {e : U256} {o : StarkStateBridge.Outcome}
    (hcall : StarkStateBridge.setRootHistoryExpiry bridge this w msg e = .ok o) :
    (bridge.starknetCoreContract = w.coreAddress → ∃ log, o.logs = [log])
      ∧ ∀ log ∈ o.logs, ¬ ExpiryArrives log e
        ∧ ∃ m, log.toL2 = some m ∧ m.decode = .error .inputTooLongForArguments
          ∧ ∀ (c : Chain) (timestamp : U64), c.deliver ⟨timestamp, m⟩ = c := by
  have hexec : StarkStateBridge.exec bridge this w msg (.setRootHistoryExpiry e) = .ok o :=
    hcall
  refine ⟨fun hcore => ⟨_, StarkStateBridge.logs_of_core hexec hcore rfl⟩, fun log hlog => ?_⟩
  rcases StarkStateBridge.exec_cases hexec with
    ⟨-, -, -, hlogs⟩ | ⟨selector, payload, hreq, -, -, -, -, hlogs⟩
  · rw [hlogs] at hlog
    exact absurd hlog List.not_mem_nil
  · -- two words for a handler that reads one
    rw [hlogs, List.mem_singleton] at hlog
    obtain ⟨rfl, rfl⟩ := Prod.mk.inj (Option.some.inj hreq)
    have hselector : log.selector = handleSetRootHistoryExpirySelector := hlog ▸ rfl
    have hpayload : log.payload = splitPayload e := hlog ▸ rfl
    have hm := toL2_setRootHistoryExpiry hselector hpayload
    refine ⟨?_, _, hm, decode_twoWordExpiry _ _ _, fun c timestamp => ?_⟩
    · rintro ⟨m, x, hm', hdec, -⟩
      rw [hm, Option.some.injEq] at hm'
      rw [← hm', decode_twoWordExpiry] at hdec
      cases hdec
    · refine Chain.deliver_of_rejects ?_
      rintro call ⟨hdec, -, -⟩
      rw [decode_twoWordExpiry] at hdec
      cases hdec

/-- What the owner's call with an hour logs. -/
def sampleExpiryLog : LogMessageToL2 :=
  ⟨7, 3, handleSetRootHistoryExpirySelector, splitPayload 3600, 0, 10⟩

theorem setRootHistoryExpiry_never_arrives_sample : ¬ ExpiryArrives sampleExpiryLog 3600 := by
  have hcall : StarkStateBridge.setRootHistoryExpiry sampleStart.bridge 7 sampleStart.world
      ⟨1, 10⟩ 3600 = .ok ⟨_, _, [sampleExpiryLog], _⟩ := rfl
  exact ((setRootHistoryExpiry_never_arrives hcall).2 _ (List.mem_singleton_self _)).1

/-- The owner sets an hour; L1 emits success and L2 keeps its week. -/
theorem expiry_of_an_hour_is_lost :
    let s := run (step sampleAccounts) sampleStart
      [.deploy 7 20, .call ⟨1, 10⟩ (.setRootHistoryExpiry 3600), .deliver 0 100]
    (∃ o, StarkStateBridge.exec sampleStart.bridge 7 sampleStart.world ⟨1, 10⟩
        (.setRootHistoryExpiry 3600) = .ok o ∧ o.event = .setRootHistoryExpiry 3600)
      ∧ s.channel.delivered = [0]
      ∧ s.worldID.map (fun c => c.storage.worldID.rootHistoryExpiry)
        = some WorldID.oneWeek :=
  ⟨⟨_, rfl, rfl⟩, rfl, rfl⟩

end System

end WorldIDBridge
