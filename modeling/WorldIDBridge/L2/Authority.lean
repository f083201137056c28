import WorldIDBridge.L2.Validity

/-!
# Who the contract obeys, and what a message can change

The sender check of the handlers reads one cell, `l1_owner`, and one
handler writes it. This module says which messages are accepted in a
reachable state, what exactly an accepted one changes, how long a previous
owner stays shut out after a hand-over, and when a deployment has an owner
at all.
-/

namespace WorldIDBridge.L2

open Checked StarkWorldID TransitionRun

/-- The transaction of an L1 message: the generated wrapper, then the
handler it calls. -/
def Delivery.execute (self : StarkWorldID.Storage) (d : Delivery) :
    Except Panic (StarkWorldID.Storage × List StarkWorldID.Event) := do
  let call ← d.message.decode
  call.exec self d.message.fromAddress d.timestamp

/-- The transaction returns. -/
def Delivery.Accepted (self : StarkWorldID.Storage) (d : Delivery) : Prop :=
  ∃ r, d.execute self = .ok r

namespace Delivery

theorem execute_eq_ok {self : StarkWorldID.Storage} {d : Delivery}
    {r : StarkWorldID.Storage × List StarkWorldID.Event} :
    d.execute self = .ok r
      ↔ ∃ call, d.message.decode = .ok call ∧ self.Obeys d.message.fromAddress
          ∧ call.Guard self
          ∧ r = (call.effect self d.timestamp, call.emits self d.timestamp) := by
  rw [execute, bind_eq_ok]
  simp only [HandlerCall.exec_eq_ok]

theorem accepted_iff {self : StarkWorldID.Storage} {d : Delivery} :
    d.Accepted self
      ↔ ∃ call, d.message.decode = .ok call ∧ self.Obeys d.message.fromAddress
          ∧ call.Guard self := by
  constructor
  · intro ⟨r, hr⟩
    obtain ⟨call, hdec, howner, hguard, -⟩ := execute_eq_ok.mp hr
    exact ⟨call, hdec, howner, hguard⟩
  · intro ⟨call, hdec, howner, hguard⟩
    exact ⟨_, execute_eq_ok.mpr ⟨call, hdec, howner, hguard, rfl⟩⟩

/-- A message whose call is known: its sender and its guard decide. -/
theorem accepted_iff_of_decode {self : StarkWorldID.Storage} {d : Delivery}
    {call : HandlerCall} (hdec : d.message.decode = .ok call) :
    d.Accepted self ↔ self.Obeys d.message.fromAddress ∧ call.Guard self := by
  rw [accepted_iff]
  constructor
  · intro ⟨call', hdec', h⟩
    rw [hdec, Except.ok.injEq] at hdec'
    subst hdec'
    exact h
  · intro h
    exact ⟨call, hdec, h⟩

end Delivery

/-! ## Frames -/

/-- What an accepted call may change and to what; every other cell keeps
its value. -/
def StarkWorldID.HandlerCall.Changes (before after : StarkWorldID.Storage) (now : U64) :
    HandlerCall → Prop
  | .receiveRoot newRoot =>
      after.crossDomainOwnable = before.crossDomainOwnable
        ∧ after.worldID.treeDepth = before.worldID.treeDepth
        ∧ after.worldID.rootHistoryExpiry = before.worldID.rootHistoryExpiry
        ∧ after.worldID.latestRoot = newRoot
        ∧ after.worldID.rootHistory newRoot = now.setWidth 128
        ∧ ∀ r, r ≠ newRoot → after.worldID.rootHistory r = before.worldID.rootHistory r
  | .setRootHistoryExpiry expiryTime =>
      after = { before with worldID :=
        { before.worldID with rootHistoryExpiry := expiryTime } }
  | .changeL1StateBridgeAddress newOwner =>
      after = { before with crossDomainOwnable := ⟨newOwner⟩ }

/-- One frame lemma for the three handlers. -/
theorem StarkWorldID.HandlerCall.changes_effect (self : StarkWorldID.Storage) (now : U64)
    (call : HandlerCall) :
    call.Changes self (call.effect self now) now := by
  cases call with
  | receiveRoot newRoot =>
      refine ⟨rfl, rfl, rfl, rfl, ?_, fun r hr => ?_⟩
      · exact Function.update_self newRoot _ _
      · exact Function.update_of_ne hr _ _
  | setRootHistoryExpiry expiryTime => rfl
  | changeL1StateBridgeAddress newOwner => rfl

namespace Chain

theorem accepted_of_accepts {c : Chain} {d : Delivery} {call : HandlerCall}
    (h : c.Accepts d call) : d.Accepted c.storage :=
  Delivery.accepted_iff.mpr ⟨call, h.decode, h.owner, h.guard⟩

/-- A message that panics leaves the whole contract as it was. -/
theorem deliver_of_not_accepted {c : Chain} {d : Delivery} (h : ¬ d.Accepted c.storage) :
    c.deliver d = c :=
  deliver_of_rejects fun _ hacc => h (accepted_of_accepts hacc)

theorem changes_of_accepted {c : Chain} {d : Delivery} {call : HandlerCall}
    (hdec : d.message.decode = .ok call) (h : d.Accepted c.storage) :
    call.Changes c.storage (c.deliver d).storage d.timestamp := by
  obtain ⟨howner, hguard⟩ := (Delivery.accepted_iff_of_decode hdec).mp h
  rw [deliver_of_accepts ⟨hdec, howner, hguard⟩]
  exact HandlerCall.changes_effect c.storage d.timestamp call

/-- No handler writes the tree depth. -/
theorem deliver_treeDepth (c : Chain) (d : Delivery) :
    (c.deliver d).storage.worldID.treeDepth = c.storage.worldID.treeDepth := by
  rcases deliver_cases c d with ⟨hsame, -⟩ | ⟨call, -, hnext⟩
  · rw [hsame]
  · rw [hnext]
    cases call <;> rfl

theorem run_treeDepth (c : Chain) (ds : List Delivery) :
    (run deliver c ds).storage.worldID.treeDepth = c.storage.worldID.treeDepth := by
  induction ds generalizing c with
  | nil => rfl
  | cons d ds ih => rw [run_cons, ih, deliver_treeDepth]

/-! ## The owner cell -/

/-- The owner after a message: the one it names, if it is an accepted
hand-over, else the one before. -/
theorem deliver_l1Owner (c : Chain) (d : Delivery) :
    (c.deliver d).storage.crossDomainOwnable.l1Owner
        = c.storage.crossDomainOwnable.l1Owner
      ∨ ∃ newOwner, c.Accepts d (.changeL1StateBridgeAddress newOwner)
          ∧ (c.deliver d).storage.crossDomainOwnable.l1Owner = newOwner := by
  rcases deliver_cases c d with ⟨hsame, -⟩ | ⟨call, hacc, hnext⟩
  · left
    rw [hsame]
  · rw [hnext]
    cases call with
    | receiveRoot r => exact .inl rfl
    | setRootHistoryExpiry x => exact .inl rfl
    | changeL1StateBridgeAddress newOwner => exact .inr ⟨newOwner, hacc, rfl⟩

/-- The message does not hand the contract to `a`. -/
def WithholdsFrom (a : EthAddress) (c : Chain) (d : Delivery) : Prop :=
  ¬ c.Accepts d (.changeL1StateBridgeAddress a)

/-- Who is not the owner stays so until a hand-over names it. -/
theorem l1Owner_ne_of_along {a : EthAddress} {c : Chain} {ds : List Delivery}
    (h : c.storage.crossDomainOwnable.l1Owner ≠ a)
    (hds : Along deliver (WithholdsFrom a) c ds) :
    (run deliver c ds).storage.crossDomainOwnable.l1Owner ≠ a := by
  refine run_invariant deliver
    (I := fun c => c.storage.crossDomainOwnable.l1Owner ≠ a) ?_ h hds
  intro c d hne hwith
  rcases deliver_l1Owner c d with hsame | ⟨newOwner, hacc, hnew⟩
  · rw [hsame]
    exact hne
  · rw [hnew]
    intro heq
    subst heq
    exact hwith hacc

theorem not_accepted_of_ne_owner {c : Chain} {a : EthAddress}
    (h : c.storage.crossDomainOwnable.l1Owner ≠ a) {d : Delivery}
    (hd : d.message.fromAddress = a.toFelt) : ¬ d.Accepted c.storage := by
  intro hacc
  obtain ⟨call, -, ⟨-, howner⟩, -⟩ := Delivery.accepted_iff.mp hacc
  rw [hd, EthAddress.toFelt_inj] at howner
  exact h howner.symm

/-- **Authority, atomicity and frame** in every reachable state: a message
is accepted exactly when its call decodes, comes from the nonzero owner and
meets its handler's guard; a rejected one changes nothing and an accepted
one exactly its frame; after a hand-over to another account the previous
owner is refused until a hand-over names it again; and the tree depth is
the constructor's. -/
theorem deliver_authority {l1Address : EthAddress} {treeDepth : U8} {c₀ : Chain}
    (hdeploy : deploy l1Address treeDepth = .ok c₀) (ds : List Delivery)
    (d : Delivery) :
    let c := run deliver c₀ ds
    let owner := c.storage.crossDomainOwnable.l1Owner
    (d.Accepted c.storage
      ↔ ∃ call, d.message.decode = .ok call
          ∧ (d.message.fromAddress ≠ 0 ∧ d.message.fromAddress = owner.toFelt)
          ∧ call.Guard c.storage)
    ∧ (¬ d.Accepted c.storage → (c.deliver d).storage = c.storage)
    ∧ (∀ call, d.message.decode = .ok call → d.Accepted c.storage →
        call.Changes c.storage (c.deliver d).storage d.timestamp)
    ∧ (∀ newOwner, d.message.decode = .ok (.changeL1StateBridgeAddress newOwner) →
        d.Accepted c.storage → newOwner ≠ owner →
        ∀ ds', Along deliver (WithholdsFrom owner) (c.deliver d) ds' →
        ∀ d' : Delivery, d'.message.fromAddress = owner.toFelt →
          ¬ d'.Accepted (run deliver (c.deliver d) ds').storage)
    ∧ (c.storage.worldID.treeDepth = treeDepth
        ∧ 16 ≤ treeDepth.toNat ∧ treeDepth.toNat ≤ 32) := by
  intro c owner
  refine ⟨Delivery.accepted_iff, ?_, ?_, ?_, ?_⟩
  · intro hrej
    rw [deliver_of_not_accepted hrej]
  · intro call hdec hacc
    exact changes_of_accepted hdec hacc
  · intro newOwner hdec hacc hne ds' hds' d' hd'
    have hhand := changes_of_accepted hdec hacc
    have hafter : (c.deliver d).storage.crossDomainOwnable.l1Owner ≠ owner := by
      rw [show (c.deliver d).storage = _ from hhand]
      exact hne
    exact not_accepted_of_ne_owner (l1Owner_ne_of_along hafter hds') hd'
  · obtain ⟨hvalid, rfl⟩ := deploy_eq_ok.mp hdeploy
    exact ⟨run_treeDepth _ ds, (validate_iff treeDepth).mp hvalid⟩

/-- The owner `7` hands over to `8`: its own root message, delivered late,
is refused. -/
theorem deliver_authority_sample :
    ¬ Delivery.Accepted
      (run deliver (sample.deliver ⟨10, (HandlerCall.changeL1StateBridgeAddress 8).message 7⟩)
        []).storage
      ⟨11, (HandlerCall.receiveRoot 5).message 7⟩ :=
  (deliver_authority deploy_sample [] ⟨10, (HandlerCall.changeL1StateBridgeAddress 8).message 7⟩).2.2.2.1
    8 (by decide) ⟨_, rfl⟩ (by decide) [] trivial ⟨11, (HandlerCall.receiveRoot 5).message 7⟩ rfl

/-- A hand-over to the owner itself is accepted and shuts nobody out, and a
hand-over back lets the first owner's late message in. -/
theorem previous_owner_accepted :
    (Delivery.Accepted sample.storage
        ⟨10, (HandlerCall.changeL1StateBridgeAddress 7).message 7⟩
      ∧ Delivery.Accepted
          (sample.deliver ⟨10, (HandlerCall.changeL1StateBridgeAddress 7).message 7⟩).storage
          ⟨11, (HandlerCall.receiveRoot 5).message 7⟩)
    ∧ Delivery.Accepted sample.storage
        ⟨10, (HandlerCall.changeL1StateBridgeAddress 8).message 7⟩
    ∧ Delivery.Accepted
        (run deliver sample [⟨10, (HandlerCall.changeL1StateBridgeAddress 8).message 7⟩,
          ⟨11, (HandlerCall.changeL1StateBridgeAddress 7).message 8⟩]).storage
        ⟨12, (HandlerCall.receiveRoot 5).message 7⟩ :=
  ⟨⟨⟨_, rfl⟩, ⟨_, rfl⟩⟩, ⟨_, rfl⟩, ⟨_, rfl⟩⟩

/-! ## Deployments with an owner -/

/-- The contract has an owner, and root messages of exactly one sender can
be accepted: a fresh root is, from that sender. -/
structure Governed (c : Chain) : Prop where
  owner : c.storage.crossDomainOwnable.l1Owner ≠ 0
  sender : ∃ sender, ∀ (fromAddress : Felt252) (r : U256) (now : U64),
    Delivery.Accepted c.storage ⟨now, (HandlerCall.receiveRoot r).message fromAddress⟩
      ↔ fromAddress = sender ∧ c.storage.worldID.rootHistory r = 0

theorem accepted_receiveRoot_iff {c : Chain} {fromAddress : Felt252} {r : U256} {now : U64} :
    Delivery.Accepted c.storage ⟨now, (HandlerCall.receiveRoot r).message fromAddress⟩
      ↔ (fromAddress ≠ 0 ∧ fromAddress = c.storage.crossDomainOwnable.l1Owner.toFelt)
        ∧ c.storage.worldID.rootHistory r = 0 := by
  have hdec := HandlerCall.decode_message fromAddress (.receiveRoot r)
  exact @Delivery.accepted_iff_of_decode c.storage ⟨now, _⟩ _ hdec

theorem governed_of_owner {c : Chain} (h : c.storage.crossDomainOwnable.l1Owner ≠ 0) :
    Governed c := by
  refine ⟨h, c.storage.crossDomainOwnable.l1Owner.toFelt, fun fromAddress r now => ?_⟩
  rw [accepted_receiveRoot_iff]
  have hnz : fromAddress = c.storage.crossDomainOwnable.l1Owner.toFelt → fromAddress ≠ 0 := by
    intro heq hz
    exact h (EthAddress.toFelt_eq_zero.mp (heq ▸ hz))
  exact ⟨fun ⟨⟨_, heq⟩, hr⟩ => ⟨heq, hr⟩, fun ⟨heq, hr⟩ => ⟨⟨hnz heq, heq⟩, hr⟩⟩

/-- The transfer guard keeps the owner nonzero. -/
theorem deliver_owner_ne_zero {c : Chain} (h : c.storage.crossDomainOwnable.l1Owner ≠ 0)
    (d : Delivery) : (c.deliver d).storage.crossDomainOwnable.l1Owner ≠ 0 := by
  rcases deliver_l1Owner c d with hsame | ⟨newOwner, hacc, hnew⟩
  · rw [hsame]
    exact h
  · rw [hnew]
    exact hacc.guard

/-- A contract without an owner obeys nobody, and stays without one. -/
theorem not_accepted_of_owner_zero {c : Chain}
    (h : c.storage.crossDomainOwnable.l1Owner = 0) (d : Delivery) :
    ¬ d.Accepted c.storage := by
  intro hacc
  obtain ⟨call, -, ⟨hnz, howner⟩, -⟩ := Delivery.accepted_iff.mp hacc
  rw [h] at howner
  exact hnz howner

theorem run_of_owner_zero {c : Chain} (h : c.storage.crossDomainOwnable.l1Owner = 0)
    (ds : List Delivery) : run deliver c ds = c := by
  induction ds with
  | nil => rfl
  | cons d ds ih =>
      rw [run_cons, deliver_of_not_accepted (not_accepted_of_owner_zero h d)]
      exact ih

/-- **A deployment has an owner for good or never**: in any state it
reaches, it has an owner and exactly one sender whose root messages can be
accepted, if and only if its constructor was given a nonzero address. -/
theorem governed_iff {l1Address : EthAddress} {treeDepth : U8} {c₀ : Chain}
    (hdeploy : deploy l1Address treeDepth = .ok c₀) (ds : List Delivery) :
    Governed (run deliver c₀ ds) ↔ l1Address ≠ 0 := by
  obtain ⟨-, rfl⟩ := deploy_eq_ok.mp hdeploy
  constructor
  · rintro hgov rfl
    apply hgov.owner
    rw [run_of_owner_zero rfl]
  · intro hne
    apply governed_of_owner
    exact run_invariant deliver (I := fun c => c.storage.crossDomainOwnable.l1Owner ≠ 0)
      (fun _ d h _ => deliver_owner_ne_zero h d) hne (along_true deliver _ ds)

theorem governed_sample : Governed (run deliver sample sampleMessages) :=
  (governed_iff deploy_sample sampleMessages).mpr (by decide)

/-- A deployment for the zero address is accepted, and refuses every root
from every sender at every time. -/
theorem deploy_without_owner :
    ∃ c₀, deploy 0 20 = .ok c₀ ∧ c₀.storage.crossDomainOwnable.l1Owner = 0
      ∧ ∀ ds d, ¬ Delivery.Accepted (run deliver c₀ ds).storage d := by
  refine ⟨_, rfl, rfl, fun ds d => ?_⟩
  rw [run_of_owner_zero rfl]
  exact not_accepted_of_owner_zero rfl d

end Chain

end WorldIDBridge.L2
