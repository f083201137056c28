import WorldIDBridge.System.Delivery

/-!
# The order of deliveries

The channel does not keep the order of the messages, and a root carries no
sequence number. What the contract on L2 makes of a run is therefore a
function of the deliveries alone: its latest root is the root delivered
last. This module proves that, and from it exactly when the latest root
never goes back to an older one.
-/

namespace WorldIDBridge

open L1 L2 L2.StarkWorldID TransitionRun

namespace System

variable (acc : Accounts)

/-- The root of the message at position `i`, if it is a root message of the
bridge to StarkWorldID. -/
def rootAt (s : System) (i : Nat) : Option U256 := s.channel.sent[i]?.bind (rootOf acc)

/-- The latest root on L2, once a root was accepted. -/
def latest? (s : System) : Option U256 :=
  s.worldID.bind fun c => c.lastReceived.map fun _ => c.storage.worldID.latestRoot

variable {acc}

variable (acc) in
theorem step_extends (s : System) (a : Action) :
    s.channel.Extends (step acc s a).channel := by
  constructor
  · rcases step_sent acc s a with hsent | ⟨log, hsent, -⟩
    · exact hsent ▸ List.prefix_refl _
    · exact hsent ▸ List.prefix_append _ _
  · cases step_onL2 acc s a with
    | same _ hdel => exact hdel ▸ List.suffix_refl _
    | deployed _ _ _ _ hdel => exact hdel ▸ List.suffix_refl _
    | delivered _ _ _ _ _ hdel => exact hdel ▸ List.suffix_cons _ _

variable (acc) in
theorem run_extends (s : System) (as : List Action) :
    s.channel.Extends (run (step acc) s as).channel :=
  run_rel (step acc) (R := fun s s' => s.channel.Extends s'.channel) (P := fun _ _ => True)
    (fun _ => .refl _) (fun _ _ _ h h' => h.trans h') (fun s a _ => step_extends acc s a)
    (along_true (step acc) s as)

/-- What was sent before is read as before. -/
theorem rootAt_of_extends {s s' : System} (h : s.channel.Extends s'.channel) {i : Nat}
    (hi : i < s.channel.sent.length) : rootAt acc s' i = rootAt acc s i := by
  rw [rootAt, rootAt, h.getElem? hi]

/-! ## What L2 holds is what was delivered -/

/-- `f` reads the positions sent so far as `rootAt` does. -/
def Reads (acc : Accounts) (f : Nat → Option U256) (s : System) : Prop :=
  ∀ i, i < s.channel.sent.length → rootAt acc s i = f i

theorem Reads.of_extends {f : Nat → Option U256} {s s' : System} (h : Reads acc f s')
    (hext : s.channel.Extends s'.channel) : Reads acc f s := by
  intro i hi
  have hlen : i < s'.channel.sent.length :=
    Nat.lt_of_lt_of_le hi hext.sent.length_le
  rw [← h i hlen, rootAt_of_extends hext hi]

theorem reads_self (s : System) : Reads acc (rootAt acc s) s := fun _ _ => rfl

/-- L2 holds the roots delivered, in the order they were delivered. -/
structure Holds (f : Nat → Option U256) (delivered : List Nat) (c : Chain) : Prop where
  received : (Chain.receivedRoots c.accepted).map Prod.fst = delivered.filterMap f
  latest : c.storage.worldID.latestRoot = (delivered.filterMap f).head?.getD 0
  history : ∀ root, c.storage.worldID.rootHistory root ≠ 0 → root ∈ delivered.filterMap f

/-- The run invariant: before the deployment nothing is delivered, after it
the contract holds what was. -/
structure InStep (f : Nat → Option U256) (s : System) : Prop where
  undeployed : s.worldID = none → s.channel.delivered = []
  deployed : ∀ c, s.worldID = some c → Holds f s.channel.delivered c

theorem holds_deploy {f : Nat → Option U256} {l1Address : EthAddress} {treeDepth : U8}
    {c : Chain} (h : Chain.deploy l1Address treeDepth = .ok c) : Holds f [] c := by
  obtain ⟨-, rfl⟩ := Chain.deploy_eq_ok.mp h
  exact ⟨rfl, rfl, fun root hr => absurd rfl hr⟩

/-- The delivery of a root that was not delivered before. -/
theorem Holds.receive_root {f : Nat → Option U256} {delivered : List Nat} {c : Chain}
    (h : Holds f delivered c) {i : Nat} {root : U256} (hf : f i = some root)
    (hnew : root ∉ delivered.filterMap f) {log : LogMessageToL2}
    (hlog : rootOf acc log = some root)
    (howner : c.storage.crossDomainOwnable.l1Owner = acc.bridge) (hbridge : acc.bridge ≠ 0)
    (timestamp : U64) : Holds f (i :: delivered) (receive acc c log timestamp) := by
  have hfresh : c.storage.worldID.rootHistory root = 0 := by
    by_contra hset
    exact hnew (h.history root hset)
  have hcons : (i :: delivered).filterMap f = root :: delivered.filterMap f :=
    List.filterMap_cons_some hf
  rw [receive_fresh hlog howner hbridge hfresh]
  refine ⟨?_, ?_, fun r hr => ?_⟩
  · rw [hcons, ← h.received]
    rfl
  · rw [hcons]
    rfl
  · rw [hcons, List.mem_cons]
    by_cases hroot : r = root
    · exact .inl hroot
    · simp only [HandlerCall.effect, Function.update_of_ne hroot] at hr
      exact .inr (h.history r hr)

/-- Any other message in flight is refused: the bridge sends only roots and
expiries, and nobody else is obeyed. -/
theorem receive_other {c : Chain} (howner : c.storage.crossDomainOwnable.l1Owner = acc.bridge)
    {P : U256 → Prop} {log : LogMessageToL2}
    (hlog : log.fromAddress = acc.bridge → Harmless P log) (hroot : rootOf acc log = none)
    (timestamp : U64) : receive acc c log timestamp = c := by
  rw [receive]
  split
  swap
  · rfl
  rename_i hto
  cases hm : log.toL2 with
  | none => rfl
  | some m =>
      refine Chain.deliver_of_rejects ?_
      rintro call ⟨hdec, hobeys, -⟩
      have hfrom : log.fromAddress = acc.bridge := by
        have hobeys := hobeys.2
        rw [howner] at hobeys
        exact EthAddress.toFelt_inj.mp ((toL2_fromAddress hm).symm.trans hobeys)
      obtain ⟨root, -, rfl⟩ := (hlog hfrom).decode hm hdec
      have hsome : rootOf acc log = some root :=
        rootOf_eq_some.mpr ⟨⟨hfrom, hto⟩, m, hm, hdec⟩
      rw [hroot] at hsome
      cases hsome

/-- One action keeps the invariant, if it sends and delivers distinct
roots only. -/
theorem InStep.step {f : Nat → Option U256} {P : U256 → Prop} {s : System} {a : Action}
    (h : InStep f s) (hsourced : Sourced acc P s) (hbridge : acc.bridge ≠ 0)
    (hreads : Reads acc f s)
    (hdistinct : ∀ i j root, f i = some root → f j = some root → i = j) :
    InStep f (step acc s a) := by
  cases step_onL2 acc s a with
  | same hsame hdel =>
      exact ⟨hsame ▸ hdel ▸ h.undeployed, hsame ▸ hdel ▸ h.deployed⟩
  | deployed _ hbefore hdeploy hnext hdel =>
      rw [h.undeployed hbefore] at hdel
      refine ⟨fun hnone => absurd (hnext ▸ hnone) nofun, ?_⟩
      rw [hnext, hdel]
      rintro c' ⟨⟩
      exact holds_deploy hdeploy
  | @delivered i timestamp c log _ hbefore hlog hflight hnext hdel =>
      refine ⟨fun hnone => absurd (hnext ▸ hnone) nofun, ?_⟩
      rw [hnext, hdel]
      rintro c' ⟨⟩
      have hholds := h.deployed c hbefore
      have howner := (hsourced.worldID c hbefore).owner
      have hfi : f i = rootOf acc log := by
        rw [← hreads i hflight.1, rootAt, hlog, Option.bind_some]
      cases hroot : rootOf acc log with
      | none =>
          -- not a root: refused, and not read by `f` either
          rw [receive_other howner (hsourced.sent log (List.mem_of_getElem? hlog)) hroot]
          have hskip : (i :: s.channel.delivered).filterMap f
              = s.channel.delivered.filterMap f :=
            List.filterMap_cons_none (hfi.trans hroot)
          exact ⟨hskip ▸ hholds.received, hskip ▸ hholds.latest, hskip ▸ hholds.history⟩
      | some root =>
          -- a root of its own, so not one delivered before
          have hfi := hfi.trans hroot
          refine hholds.receive_root hfi ?_ hroot howner hbridge timestamp
          intro hmem
          obtain ⟨j, hj, hfj⟩ := List.mem_filterMap.mp hmem
          exact hflight.2 (hdistinct i j root hfi hfj ▸ hj)

/-! ## Runs that propagate distinct roots

In this section `f` reads the positions of the whole run, no root is sent
twice, and StarkWorldID stays with the bridge. -/

section Runs

variable {f : Nat → Option U256} {s₀ : System} (hstart : Start s₀) (hbridge : acc.bridge ≠ 0)
  (hdistinct : ∀ i j root, f i = some root → f j = some root → i = j)

include hstart hbridge hdistinct

theorem inStep_run {as : List Action} (hkeep : Along (step acc) (KeepsOwner acc) s₀ as)
    (hreads : Reads acc f (run (step acc) s₀ as)) : InStep f (run (step acc) s₀ as) := by
  refine run_history_invariant (step acc)
    (I := fun as s => Along (step acc) (KeepsOwner acc) s₀ as → Reads acc f s → InStep f s)
    (P := fun _ _ => True) ?_ ?_ (along_true (step acc) s₀ as) hkeep hreads
  · intro _ _
    exact ⟨fun _ => by rw [hstart.channel]; rfl, fun c hc => by
      rw [hstart.worldID] at hc
      cases hc⟩
  · intro as a ih _ hkeep hreads
    obtain ⟨hkeep₁, -⟩ := (along_snoc (step acc)).mp hkeep
    have hreads₁ := hreads.of_extends (step_extends acc _ a)
    exact (ih hkeep₁ hreads₁).step (sourced_run hstart hkeep₁) hbridge hreads₁ hdistinct

/-- The latest root on L2 is the root delivered last. -/
theorem latest?_run {as : List Action} (hkeep : Along (step acc) (KeepsOwner acc) s₀ as)
    (hreads : Reads acc f (run (step acc) s₀ as)) :
    latest? (run (step acc) s₀ as)
      = ((run (step acc) s₀ as).channel.arrivals f).head?.bind f := by
  have h := inStep_run hstart hbridge hdistinct hkeep hreads
  rw [← Channel.head?_filterMap_delivered, latest?]
  cases hc : (run (step acc) s₀ as).worldID with
  | none => rw [h.undeployed hc]; rfl
  | some c =>
      have hholds := h.deployed c hc
      rw [Option.bind_some, Chain.lastReceived, hholds.latest, ← List.head?_map,
        hholds.received]
      cases ((run (step acc) s₀ as).channel.delivered.filterMap f).head? <;> rfl

/-- The position the latest root was sent at is the one delivered last. -/
theorem head?_arrivals_of_latest? {as : List Action}
    (hkeep : Along (step acc) (KeepsOwner acc) s₀ as)
    (hreads : Reads acc f (run (step acc) s₀ as)) {i : Nat} {root : U256}
    (hf : f i = some root) (hlatest : latest? (run (step acc) s₀ as) = some root) :
    ((run (step acc) s₀ as).channel.arrivals f).head? = some i := by
  rw [latest?_run hstart hbridge hdistinct hkeep hreads] at hlatest
  obtain ⟨j, hj, hfj⟩ := Option.bind_eq_some_iff.mp hlatest
  rw [hj, hdistinct i j root hf hfj]

/-- Every root that arrived was the latest one when it did. -/
theorem latest?_when_arrived {as : List Action}
    (hkeep : Along (step acc) (KeepsOwner acc) s₀ as)
    (hreads : Reads acc f (run (step acc) s₀ as)) {j : Nat}
    (hj : j ∈ (run (step acc) s₀ as).channel.arrivals f) :
    ∃ as₁ as₂, as = as₁ ++ as₂ ∧ latest? (run (step acc) s₀ as₁) = f j := by
  induction as using List.reverseRecOn with
  | nil =>
      rw [run_nil, Channel.mem_arrivals, hstart.channel] at hj
      exact absurd hj.1 List.not_mem_nil
  | append_singleton as a ih =>
      have hext := step_extends acc (run (step acc) s₀ as) a
      have hlatest := latest?_run hstart hbridge hdistinct hkeep hreads
      obtain ⟨hkeep₁, -⟩ := (along_snoc (step acc)).mp hkeep
      rw [run_snoc] at hreads hj hlatest
      by_cases hold : j ∈ (run (step acc) s₀ as).channel.arrivals f
      · obtain ⟨as₁, as₂, rfl, h⟩ := ih hkeep₁ (hreads.of_extends hext) hold
        exact ⟨as₁, as₂ ++ [a], by simp, h⟩
      · -- `j` is what the last action delivered, so it is the newest arrival
        refine ⟨as ++ [a], [], by simp, ?_⟩
        rw [run_snoc, hlatest]
        cases step_onL2 acc (run (step acc) s₀ as) a with
        | same _ hdel => exact absurd (Channel.arrivals_same hdel ▸ hj) hold
        | deployed _ _ _ _ hdel => exact absurd (Channel.arrivals_same hdel ▸ hj) hold
        | @delivered i _ _ _ _ _ _ _ _ hdel =>
            cases hfi : f i with
            | none => exact absurd (Channel.arrivals_skip hdel hfi ▸ hj) hold
            | some ri =>
                rw [Channel.arrivals_read hdel hfi] at hj ⊢
                rcases List.mem_cons.mp hj with rfl | hmem
                · rfl
                · exact absurd hmem hold

end Runs

/-! ## When the latest root never goes back -/

/-- The latest root never moves from a root to one sent before it. -/
def NoRegress (acc : Accounts) (f : Nat → Option U256) (s₀ : System) (as : List Action) :
    Prop :=
  ∀ as₁ as₂ as₃, as = as₁ ++ as₂ ++ as₃ → ∀ i j ri rj, f i = some ri → f j = some rj →
    latest? (run (step acc) s₀ as₁) = some rj →
    latest? (run (step acc) s₀ (as₁ ++ as₂)) = some ri → ¬ i < j

section Runs

variable {f : Nat → Option U256} {s₀ : System} (hstart : Start s₀) (hbridge : acc.bridge ≠ 0)
  (hdistinct : ∀ i j root, f i = some root → f j = some root → i = j)

include hstart hbridge hdistinct

theorem noRegress_of_inOrder {as : List Action}
    (hkeep : Along (step acc) (KeepsOwner acc) s₀ as)
    (hreads : Reads acc f (run (step acc) s₀ as))
    (h : (run (step acc) s₀ as).channel.InOrder f) : NoRegress acc f s₀ as := by
  rintro as₁ as₂ as₃ rfl i j ri rj hi hj hlatest₁ hlatest₂ hlt
  have hext₃ := run_extends acc (run (step acc) s₀ (as₁ ++ as₂)) as₃
  have hext₂ := run_extends acc (run (step acc) s₀ as₁) as₂
  rw [← run_append] at hext₃ hext₂
  have hkeep₂ := ((along_append (step acc)).mp hkeep).1
  have hkeep₁ := ((along_append (step acc)).mp hkeep₂).1
  have hreads₂ := hreads.of_extends hext₃
  have hhead₁ := head?_arrivals_of_latest? hstart hbridge hdistinct hkeep₁
    (hreads₂.of_extends hext₂) hj hlatest₁
  have hhead₂ := head?_arrivals_of_latest? hstart hbridge hdistinct hkeep₂ hreads₂ hi
    hlatest₂
  -- the earlier arrival is among the later ones, so it is not beyond their head
  have hmem := hext₂.arrivals.subset (List.mem_of_mem_head? hhead₁)
  have hle := (h.of_extends hext₃).le_head hhead₂ hmem
  omega

theorem inOrder_of_noRegress {as : List Action}
    (hkeep : Along (step acc) (KeepsOwner acc) s₀ as)
    (hreads : Reads acc f (run (step acc) s₀ as)) (h : NoRegress acc f s₀ as) :
    (run (step acc) s₀ as).channel.InOrder f := by
  induction as using List.reverseRecOn with
  | nil =>
      rw [run_nil, hstart.channel]
      exact List.Pairwise.nil
  | append_singleton as a ih =>
      have hext := step_extends acc (run (step acc) s₀ as) a
      have hlatest := latest?_run hstart hbridge hdistinct hkeep hreads
      obtain ⟨hkeep₁, -⟩ := (along_snoc (step acc)).mp hkeep
      rw [run_snoc] at hreads hlatest ⊢
      have hreads₁ := hreads.of_extends hext
      have ih := ih hkeep₁ hreads₁ fun as₁ as₂ as₃ has =>
        h as₁ as₂ (as₃ ++ [a]) (by rw [has, ← List.append_assoc])
      rw [Channel.InOrder] at ih ⊢
      cases step_onL2 acc (run (step acc) s₀ as) a with
      | same _ hdel => rwa [Channel.arrivals_same hdel]
      | deployed _ _ _ _ hdel => rwa [Channel.arrivals_same hdel]
      | @delivered i _ _ _ _ _ _ hflight _ hdel =>
          cases hfi : f i with
          | none => rwa [Channel.arrivals_skip hdel hfi]
          | some ri =>
              rw [Channel.arrivals_read hdel hfi] at hlatest ⊢
              have hnew : latest? (step acc (run (step acc) s₀ as) a) = some ri :=
                hlatest.trans hfi
              rw [List.pairwise_cons]
              refine ⟨fun j hj => ?_, ih⟩
              obtain ⟨as₁, as₂, has, hthen⟩ :=
                latest?_when_arrived hstart hbridge hdistinct hkeep₁ hreads₁ hj
              obtain ⟨rj, hrj⟩ := Option.isSome_iff_exists.mp (Channel.mem_arrivals.mp hj).2
              have hle := h as₁ (as₂ ++ [a]) [] (by simp [has]) i j ri rj hfi hrj
                (hthen.trans hrj) (by rw [← List.append_assoc, ← has, run_snoc, hnew])
              have hne : j ≠ i := fun h => hflight.2 (h ▸ (Channel.mem_arrivals.mp hj).1)
              omega

/-- Delivered in order, the root sent last is the latest one. -/
theorem latest?_of_inOrder {as : List Action}
    (hkeep : Along (step acc) (KeepsOwner acc) s₀ as)
    (hreads : Reads acc f (run (step acc) s₀ as))
    (hord : (run (step acc) s₀ as).channel.InOrder f) {i : Nat} {root : U256}
    (hi : f i = some root) (hlast : ∀ j, i < j → f j = none)
    (hdel : i ∈ (run (step acc) s₀ as).channel.delivered) :
    latest? (run (step acc) s₀ as) = some root := by
  have hmem : i ∈ (run (step acc) s₀ as).channel.arrivals f :=
    Channel.mem_arrivals.mpr ⟨hdel, by rw [hi]; rfl⟩
  cases hk : ((run (step acc) s₀ as).channel.arrivals f).head? with
  | none =>
      rw [List.head?_eq_none_iff] at hk
      exact absurd (hk ▸ hmem) List.not_mem_nil
  | some k =>
      -- the newest arrival is not older than `i`, and no root was sent after `i`
      have hle := hord.le_head hk hmem
      have hki : k = i := by
        rcases Nat.lt_or_eq_of_le hle with hlt | heq
        · have hread := (Channel.mem_arrivals.mp (List.mem_of_mem_head? hk)).2
          rw [hlast k hlt] at hread
          cases hread
        · exact heq.symm
      rw [latest?_run hstart hbridge hdistinct hkeep hreads, hk, Option.bind_some, hki, hi]

end Runs

/-- Every root sent was propagated by a call of the bridge. -/
theorem propagates_of_rootAt {s₀ : System} (hstart : Start s₀) {as : List Action}
    (hkeep : Along (step acc) (KeepsOwner acc) s₀ as) {i : Nat} {root : U256}
    (hi : rootAt acc (run (step acc) s₀ as) i = some root) :
    Earlier (step acc) (Propagates acc root) s₀ as := by
  obtain ⟨log, hlog, hroot⟩ := Option.bind_eq_some_iff.mp hi
  obtain ⟨⟨hfrom, -⟩, m, hm, hdec⟩ := rootOf_eq_some.mp hroot
  obtain ⟨root', hP, heq⟩ := ((sourced_run hstart hkeep).sent log
    (List.mem_of_getElem? hlog) hfrom).decode hm hdec
  obtain rfl := HandlerCall.receiveRoot.inj heq
  exact hP

/-- **The latest root follows the deliveries, not the sends.** In every run
that sends no root twice, each root message was propagated by the bridge,
the latest root is the one delivered last, it never goes back exactly when
the root messages are delivered in the order sent, and then the root sent
last is the latest one as soon as it is delivered. -/
theorem latest_follows_deliveries {s₀ : System} (hstart : Start s₀)
    (hbridge : acc.bridge ≠ 0) (as : List Action)
    (hkeep : Along (step acc) (KeepsOwner acc) s₀ as)
    (hdistinct : ∀ i j root, rootAt acc (run (step acc) s₀ as) i = some root →
      rootAt acc (run (step acc) s₀ as) j = some root → i = j) :
    let s := run (step acc) s₀ as
    (∀ i root, rootAt acc s i = some root →
        Earlier (step acc) (Propagates acc root) s₀ as)
      ∧ (∀ as₁ as₂, as = as₁ ++ as₂ → latest? (run (step acc) s₀ as₁)
          = ((run (step acc) s₀ as₁).channel.arrivals (rootAt acc s)).head?.bind
              (rootAt acc s))
      ∧ (NoRegress acc (rootAt acc s) s₀ as ↔ s.channel.InOrder (rootAt acc s))
      ∧ (s.channel.InOrder (rootAt acc s) → ∀ i root, rootAt acc s i = some root →
          (∀ j, i < j → rootAt acc s j = none) → i ∈ s.channel.delivered →
          latest? s = some root) := by
  intro s
  have hreads : Reads acc (rootAt acc s) s := reads_self s
  refine ⟨fun i root => propagates_of_rootAt hstart hkeep, ?_, ⟨?_, ?_⟩, ?_⟩
  · rintro as₁ as₂ rfl
    have hext := run_extends acc (run (step acc) s₀ as₁) as₂
    rw [← run_append] at hext
    exact latest?_run hstart hbridge hdistinct ((along_append (step acc)).mp hkeep).1
      (hreads.of_extends hext)
  · exact inOrder_of_noRegress hstart hbridge hdistinct hkeep hreads
  · exact noRegress_of_inOrder hstart hbridge hdistinct hkeep hreads
  · intro hord i root
    exact latest?_of_inOrder hstart hbridge hdistinct hkeep hreads hord

/-- Two roots propagated, and delivered in the other order. -/
def sampleReordered : List Action :=
  [.deploy 7 20, .call ⟨9, 10⟩ .propagateRoot,
    .environment (fun _ => some 6) (fun _ => false), .call ⟨9, 10⟩ .propagateRoot,
    .deliver 1 100, .deliver 0 101]

/-- Both roots are delivered, and the older one ends as the latest. -/
theorem reordered_roots_regress :
    let s := run (step sampleAccounts) sampleStart sampleReordered
    rootAt sampleAccounts s 0 = some 5 ∧ rootAt sampleAccounts s 1 = some 6
      ∧ latest? (run (step sampleAccounts) sampleStart (sampleReordered.take 5)) = some 6
      ∧ s.channel.delivered = [0, 1] ∧ latest? s = some 5 :=
  ⟨rfl, rfl, rfl, rfl, rfl⟩

theorem rootAt_sampleReordered (i : Nat) :
    rootAt sampleAccounts (run (step sampleAccounts) sampleStart sampleReordered) i
      = match i with
        | 0 => some 5
        | 1 => some 6
        | _ + 2 => none := by
  match i with
  | 0 => rfl
  | 1 => rfl
  | _ + 2 => rfl

theorem latest_follows_deliveries_sample :
    ¬ NoRegress sampleAccounts (rootAt sampleAccounts
        (run (step sampleAccounts) sampleStart sampleReordered)) sampleStart
        sampleReordered := by
  have hbridge : sampleAccounts.bridge ≠ 0 := by decide
  have hdistinct : ∀ i j root,
      rootAt sampleAccounts (run (step sampleAccounts) sampleStart sampleReordered) i
        = some root →
      rootAt sampleAccounts (run (step sampleAccounts) sampleStart sampleReordered) j
        = some root → i = j := by
    intro i j root hi hj
    rw [rootAt_sampleReordered] at hi hj
    split at hi <;> split at hj <;> first | rfl | cases hi <;> cases hj
  have hkeep : Along (step sampleAccounts) (KeepsOwner sampleAccounts) sampleStart
      sampleReordered := by simp [KeepsOwner, sampleReordered, sampleAccounts]
  have h := latest_follows_deliveries start_sample hbridge sampleReordered hkeep hdistinct
  intro hno
  have hord : List.Pairwise (· > ·) [0, 1] := h.2.2.1.mp hno
  exact absurd hord (by decide)

end System

end WorldIDBridge
