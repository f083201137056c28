import WorldIDBridge.Lib.TransitionRun
import WorldIDBridge.System.Messages

/-!
# Where the roots on L2 come from

Every root StarkWorldID knows was returned by the identity manager the
bridge was configured with, in a `propagateRoot` call that succeeded. The
invariant spans the two contracts and the messages between them, and holds
whatever other accounts call, send or delay.
-/

namespace WorldIDBridge

open L1 L2 L2.StarkWorldID TransitionRun

namespace System

variable (acc : Accounts)

/-- The action is a successful `propagateRoot` call, and the identity manager
configured at that moment answers `root`. -/
def Propagates (root : U256) (s : System) (a : Action) : Prop :=
  ∃ msg o, a = .call msg .propagateRoot
    ∧ StarkStateBridge.exec s.bridge acc.bridge s.world msg .propagateRoot = .ok o
    ∧ s.world.latestRoot s.bridge.worldIDIdentityManager = some root

/-- StarkWorldID is deployed for the bridge, and the owner of the bridge does
not hand StarkWorldID over. -/
def KeepsOwner (s : System) : Action → Prop
  | .deploy l1Address _ => l1Address = acc.bridge
  | .call msg (.changeL1StateBridgeAddress _) => msg.sender ≠ s.bridge.owner
  | _ => True

/-- A message of the bridge other than a hand-over: a root `P` holds of, or
an expiry. -/
def Harmless (P : U256 → Prop) (log : LogMessageToL2) : Prop :=
  (∃ root, P root ∧ log.selector = handleReceiveRootSelector
      ∧ log.payload = splitPayload root)
    ∨ ∃ e, log.selector = handleSetRootHistoryExpirySelector ∧ log.payload = splitPayload e

/-- The contract is the bridge's, and knows only roots `P` holds of. -/
structure ChainSourced (P : U256 → Prop) (c : Chain) : Prop where
  owner : c.storage.crossDomainOwnable.l1Owner = acc.bridge
  history : ∀ root, c.storage.worldID.rootHistory root ≠ 0 → P root
  latest : c.lastReceived ≠ none → P c.storage.worldID.latestRoot

/-- The invariant: the messages in flight and the contract on L2 carry only
roots `P` holds of. -/
structure Sourced (P : U256 → Prop) (s : System) : Prop where
  sent : ∀ log ∈ s.channel.sent, log.fromAddress = acc.bridge → Harmless P log
  worldID : ∀ c, s.worldID = some c → ChainSourced acc P c

variable {acc}

theorem Sourced.mono {P Q : U256 → Prop} {s : System} (h : Sourced acc P s)
    (hPQ : ∀ root, P root → Q root) : Sourced acc Q s where
  sent := fun log hmem hfrom => by
    rcases h.sent log hmem hfrom with ⟨root, hP, hs, hp⟩ | hexpiry
    · exact .inl ⟨root, hPQ root hP, hs, hp⟩
    · exact .inr hexpiry
  worldID := fun c hc =>
    let hc := h.worldID c hc
    ⟨hc.owner, fun root hr => hPQ root (hc.history root hr), fun hl => hPQ _ (hc.latest hl)⟩

/-! ## One message -/

/-- A harmless message asks for a root `P` holds of, or for nothing. -/
theorem Harmless.decode {P : U256 → Prop} {log : LogMessageToL2} (h : Harmless P log)
    {m : L1HandlerMessage} (hm : log.toL2 = some m) {call : HandlerCall}
    (hcall : m.decode = .ok call) : ∃ root, P root ∧ call = .receiveRoot root := by
  rcases h with ⟨root, hP, hs, hp⟩ | ⟨e, hs, hp⟩
  · rw [toL2_receiveRoot hs hp, Option.some.injEq] at hm
    rw [← hm, HandlerCall.decode_message, Except.ok.injEq] at hcall
    exact ⟨root, hP, hcall.symm⟩
  · rw [toL2_setRootHistoryExpiry hs hp, Option.some.injEq] at hm
    rw [← hm, decode_twoWordExpiry] at hcall
    cases hcall

/-- One message keeps the contract sourced: the bridge's messages are
harmless, and nobody else's are obeyed. -/
theorem ChainSourced.receive {P : U256 → Prop} {c : Chain} (h : ChainSourced acc P c)
    {log : LogMessageToL2} (hlog : log.fromAddress = acc.bridge → Harmless P log)
    (timestamp : U64) : ChainSourced acc P (receive acc c log timestamp) := by
  rw [System.receive]
  split
  swap
  · exact h
  cases hm : log.toL2 with
  | none => exact h
  | some m =>
      rcases Chain.deliver_cases c ⟨timestamp, m⟩ with ⟨hsame, -⟩ | ⟨call, hacc, hnext⟩
      · simp only [hsame]
        exact h
      · -- the message is accepted, so it comes from the bridge
        have hfrom : log.fromAddress = acc.bridge := by
          have hobeys := hacc.owner.2
          rw [h.owner] at hobeys
          exact EthAddress.toFelt_inj.mp ((toL2_fromAddress hm).symm.trans hobeys)
        obtain ⟨root, hP, rfl⟩ := (hlog hfrom).decode hm hacc.decode
        simp only [hnext]
        refine ⟨h.owner, fun r hr => ?_, fun _ => hP⟩
        by_cases hroot : r = root
        · exact hroot ▸ hP
        · simp only [HandlerCall.effect, Function.update_of_ne hroot] at hr
          exact h.history r hr

theorem chainSourced_deploy {P : U256 → Prop} {treeDepth : U8} {c : Chain}
    (h : Chain.deploy acc.bridge treeDepth = .ok c) : ChainSourced acc P c := by
  obtain ⟨-, rfl⟩ := Chain.deploy_eq_ok.mp h
  exact ⟨rfl, fun root hr => absurd rfl hr, fun hl => absurd rfl hl⟩

/-! ## One action -/

/-- What the bridge sends in one action, unless it hands over. -/
theorem SentByBridge.harmless {P : U256 → Prop} {s : System} {a : Action}
    {log : LogMessageToL2} (h : SentByBridge acc s a log) (hkeep : KeepsOwner acc s a)
    (hP : ∀ root, Propagates acc root s a → P root) : Harmless P log := by
  obtain ⟨msg, call, o, rfl, hexec, hreq⟩ := h.called
  cases call with
  | propagateRoot =>
      obtain ⟨root, hroot, hreq⟩ := Option.map_eq_some_iff.mp hreq
      obtain ⟨hs, hp⟩ := Prod.mk.inj hreq
      exact .inl ⟨root, hP root ⟨msg, o, rfl, hexec, hroot⟩, hs.symm, hp.symm⟩
  | changeL1StateBridgeAddress a =>
      -- the owner hands StarkWorldID over, which the run does not do
      obtain ⟨hguard, -⟩ := StarkStateBridge.exec_eq_ok.mp hexec
      exact absurd hguard.1 hkeep
  | setRootHistoryExpiry e =>
      obtain ⟨hs, hp⟩ := Prod.mk.inj (Option.some.inj hreq)
      exact .inr ⟨e, hs.symm, hp.symm⟩
  | setFeeLimitPropagateRoot x => cases hreq
  | setFeeLimitSetRootHistoryExpiry x => cases hreq
  | setFeeLimitTransferOwnership x => cases hreq
  | setWorldIDIdentityManager a => cases hreq
  | setStarkWorldIDAddress x => cases hreq
  | setStarknetCoreContract a => cases hreq

theorem Sourced.step {P : U256 → Prop} {s : System} (h : Sourced acc P s) {a : Action}
    (hkeep : KeepsOwner acc s a) (hP : ∀ root, Propagates acc root s a → P root) :
    Sourced acc P (step acc s a) where
  sent := by
    rcases step_sent acc s a with hsent | ⟨log, hsent, hlog⟩
    · rw [hsent]
      exact h.sent
    · rw [hsent]
      intro log' hmem hfrom
      rcases List.mem_append.mp hmem with hmem | hmem
      · exact h.sent log' hmem hfrom
      · rw [List.mem_singleton.mp hmem] at hfrom ⊢
        rcases hlog with hforeign | hbridge
        · exact absurd hfrom hforeign
        · exact hbridge.harmless hkeep hP
  worldID := by
    cases step_onL2 acc s a with
    | same hsame => exact hsame ▸ h.worldID
    | deployed haction _ hdeploy hnext =>
        subst haction
        rw [hnext]
        rintro c' ⟨⟩
        rw [KeepsOwner] at hkeep
        exact chainSourced_deploy (hkeep ▸ hdeploy)
    | delivered _ hbefore hlog _ hnext =>
        rw [hnext]
        rintro c' ⟨⟩
        exact (h.worldID _ hbefore).receive (h.sent _ (List.mem_of_getElem? hlog)) _

/-! ## Every run -/

theorem Start.sourced {s : System} (h : Start s) (P : U256 → Prop) : Sourced acc P s where
  sent := by simp [h.channel]
  worldID := by simp [h.worldID]

theorem sourced_run {s₀ : System} (hstart : Start s₀) {as : List Action}
    (hkeep : Along (System.step acc) (KeepsOwner acc) s₀ as) :
    Sourced acc (fun root => Earlier (System.step acc) (Propagates acc root) s₀ as)
      (run (System.step acc) s₀ as) := by
  refine run_history_invariant (System.step acc)
    (I := fun as s => Sourced acc
      (fun root => Earlier (System.step acc) (Propagates acc root) s₀ as) s)
    (P := KeepsOwner acc) (hstart.sourced _) ?_ hkeep
  intro as a h hkeep
  exact (h.mono fun root hr => hr.snoc _ a).step hkeep fun root hr => .last _ hr

/-- **End-to-end provenance**: in every state reached, the contract on L2 is
still the bridge's, and every root in its history, and its latest root once
there is one, was the identity manager's in an earlier successful
`propagateRoot` call. -/
theorem provenance {s₀ : System} (hstart : Start s₀) (as : List Action)
    (hkeep : Along (System.step acc) (KeepsOwner acc) s₀ as) {c : Chain}
    (hc : (run (System.step acc) s₀ as).worldID = some c) :
    c.storage.crossDomainOwnable.l1Owner = acc.bridge
      ∧ (∀ root, c.storage.worldID.rootHistory root ≠ 0 →
          Earlier (System.step acc) (Propagates acc root) s₀ as)
      ∧ (c.lastReceived ≠ none →
          Earlier (System.step acc) (Propagates acc c.storage.worldID.latestRoot) s₀ as) := by
  have hinv := (sourced_run hstart hkeep).worldID c hc
  exact ⟨hinv.owner, hinv.history, hinv.latest⟩

/-- A bridge at `7` owned by `1`, with the identity manager `2` that answers
root `5`, StarkWorldID's address `3`, and the core at `4`. -/
def sampleAccounts : Accounts := ⟨7, 3⟩

def sampleStart : System where
  bridge := ⟨1, 3, 2, 4, StarkStateBridge.defaultStarkFeeLimit,
    StarkStateBridge.defaultStarkFeeLimit, StarkStateBridge.defaultStarkFeeLimit⟩
  world := ⟨4, ⟨0, fun _ => 0⟩, fun a => if a = 2 then some 5 else none, fun _ => false⟩
  channel := .empty
  worldID := none

theorem start_sample : Start sampleStart := ⟨⟨1, 2, 3, 4, rfl⟩, rfl, rfl⟩

/-- Account `9` propagates the root, account `8` sends a root of its own, and
the two messages arrive in the other order. -/
def sampleActions : List Action :=
  [.deploy 7 20, .call ⟨9, 10⟩ .propagateRoot,
    .foreign ⟨8, 10⟩ 3 handleReceiveRootSelector (splitPayload 6),
    .deliver 1 100, .deliver 0 101]

theorem provenance_sample :
    Earlier (System.step sampleAccounts) (Propagates sampleAccounts 5) sampleStart
      sampleActions :=
  (provenance start_sample sampleActions
    (by simp [KeepsOwner, sampleActions, sampleAccounts])
    (c := ⟨⟨⟨7⟩, ⟨20, WorldID.oneWeek, 5, Function.update (fun _ => 0) 5 101⟩⟩,
      [(101, .receiveRoot 5)],
      [.worldIDEvent (.rootAdded 5 101), .crossDomainOwnableEvent ⟨0, 7⟩]⟩)
    rfl).2.2 (by decide)

end System

end WorldIDBridge
