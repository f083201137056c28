import WorldIDBridge.L1.StarkStateBridge
import WorldIDBridge.Service.PropagateRoot

/-!
# What a success of propagate_root means

The relayer takes any receipt for a success. This module says what a run of
`propagate_root` that returned `Ok` did, and when that is a `propagateRoot`
transaction that succeeded on L1.
-/

namespace WorldIDBridge.Service

open Prog L1

/-! ## Reading a trace -/

/-- What a trace says of transactions: those handed to the node for
broadcast, and the receipts it yielded; both newest first. -/
structure Journal where
  sent : List Eip1559Transaction
  receipts : List (Eip1559Transaction × TransactionReceipt)

/-- The monitor that keeps the journal. -/
def journal : Monitor Request Response Journal where
  allows _ _ := True
  next s
    | .sendRawTransaction tx, _ => { s with sent := tx :: s.sent }
    | .awaitReceipt tx _, .ok (some receipt) =>
        { s with receipts := (tx, receipt) :: s.receipts }
    | _, _ => s

def journalOf (tr : Trace) : Journal := journal.after ⟨[], []⟩ tr

/-- A transaction that asks the bridge for `propagateRoot` with `value`. -/
structure IsPropagateRoot (config : Config) (value : U256) (tx : Eip1559Transaction) :
    Prop where
  toAddress : tx.toAddress = config.l1BridgeAddress
  data : tx.data = propagateRootCalldata
  value : tx.value = value

/-! ## One specification for each function -/

/-- Filling and simulating broadcasts nothing and yields no receipt. -/
theorem fillAndSimulate_spec (config : Config) (value : U256) (s : Journal) :
    (fillAndSimulateEip1559Transaction propagateRootCalldata config.l1BridgeAddress
        config.walletAddress config.chainId value).run.wp journal
      (fun r s' => s' = s ∧ ∀ tx, r = .ok tx → IsPropagateRoot config value tx) s := by
  simp only [fillAndSimulateEip1559Transaction, wp_mapErr_bind, wp_lift_bind]
  refine ⟨trivial, fun fees => ?_⟩
  cases fees with
  | error e => exact ⟨rfl, nofun⟩
  | ok fees =>
      refine ⟨trivial, fun nonce => ?_⟩
      cases nonce with
      | error e => trivial
      | ok nonce =>
          refine ⟨trivial, fun filled => ?_⟩
          cases filled with
          | error e => exact ⟨rfl, nofun⟩
          | ok filled =>
              simp only [wp_ret, wp_unwrap]
              intro gas _ product _
              refine ⟨trivial, fun simulated => ?_⟩
              cases simulated with
              | error e => exact ⟨rfl, nofun⟩
              | ok _ =>
                  refine ⟨rfl, ?_⟩
                  intro tx htx
                  cases htx
                  exact ⟨rfl, rfl, rfl⟩

/-- A receipt that is waited for is the one the node yields. -/
theorem waitForTxReceipt_spec (tx : Eip1559Transaction) (blockConfirmations : Nat)
    (s : Journal) :
    (waitForTxReceipt tx blockConfirmations).run.wp journal
      (fun r s' => match r with
        | .ok receipt => s' = { s with receipts := (tx, receipt) :: s.receipts }
        | .error _ => s' = s) s := by
  simp only [waitForTxReceipt, wp_mapErr_bind]
  refine ⟨trivial, fun awaited => ?_⟩
  cases awaited with
  | error e => rfl
  | ok receipt => cases receipt <;> rfl

/-- Signing and sending broadcasts the transaction it is given, or none, and
returns the node's receipt for it. -/
theorem signAndSendTransaction_spec (tx : Eip1559Transaction) (blockConfirmations : Nat)
    (s : Journal) :
    (signAndSendTransaction tx blockConfirmations).run.wp journal
      (fun r s' => match r with
        | .ok receipt => s' = ⟨tx :: s.sent, (tx, receipt) :: s.receipts⟩
        | .error _ => s'.receipts = s.receipts) s := by
  simp only [signAndSendTransaction, wp_mapErr_bind, wp_lift_bind]
  refine ⟨trivial, fun signed => ?_⟩
  cases signed with
  | error e => rfl
  | ok _ =>
      refine ⟨trivial, fun sent => ?_⟩
      cases sent with
      | error e =>
          simp only [wp_ret]
          split <;> rfl
      | ok _ =>
          simp only [wp_ret]
          -- from here on the transaction is with the node
          have hwait := waitForTxReceipt_spec tx blockConfirmations ⟨tx :: s.sent, s.receipts⟩
          refine wp_mono hwait fun awaited s' h => ?_
          cases awaited with
          | error e =>
              simp only at h ⊢
              rw [h]
          | ok receipt => exact h

/-- An attempt that returns `Ok` broadcast one `propagateRoot` transaction and
has a receipt for it; one that fails has no receipt. -/
theorem propagateRoot_spec (config : Config) (value : U256) (s : Journal) :
    (propagateRoot config value).run.wp journal
      (fun r s' => match r with
        | .ok () => ∃ tx receipt, IsPropagateRoot config value tx
            ∧ s' = ⟨tx :: s.sent, (tx, receipt) :: s.receipts⟩
        | .error _ => s'.receipts = s.receipts) s := by
  simp only [propagateRoot, wp_mapErr_bind, wp_lift_bind, wp_unwrap]
  refine wp_mono (fillAndSimulate_spec config value s) fun filled s' hfilled => ?_
  obtain ⟨rfl, htx⟩ := hfilled
  cases filled with
  | error e => rfl
  | ok tx =>
      intro gasLimit _
      split
      · simp only [wp_mapErr_bind]
        refine wp_mono (signAndSendTransaction_spec tx _ s') fun sent s'' h => ?_
        cases sent with
        | error e => exact h
        | ok receipt =>
            simp only at h ⊢
            split
            · simp only [wp_lift_bind, wp_unwrap]
              exact fun _ _ => ⟨tx, receipt, htx tx rfl, h⟩
            · exact ⟨tx, receipt, htx tx rfl, h⟩
      · rfl

/-- The retry loop returns `Ok` only with the attempt that did. -/
theorem retryLoop_ok {config : Config} {value : U256} {delays : List Nat} {tr : Trace}
    (h : Performs (retryLoop config value delays) tr (ret (.ok ()))) :
    ∃ before last, tr = before ++ last
      ∧ Performs (propagateRoot config value).run last (ret (.ok ())) := by
  induction delays generalizing tr with
  | nil => exact ⟨[], tr, rfl, h⟩
  | cons delay delays ih =>
      obtain ⟨r, tr₁, tr₂, rfl, h₁, h₂⟩ := h.bind_ret
      cases r with
      | ok _ =>
          cases h₂
          exact ⟨[], tr₁, by simp, h₁⟩
      | error err =>
          simp only at h₂
          split at h₂
          · -- the attempt failed fast: what returned `Ok` is a later one
            obtain ⟨_, tr₃, tr₄, rfl, -, h₄⟩ := h₂.bind_ret
            obtain ⟨before, last, rfl, hlast⟩ := ih h₄
            exact ⟨tr₁ ++ (tr₃ ++ before), last, by simp, hlast⟩
          · cases h₂

/-! ## What L1 did with the transaction -/

/-- The L1 state a transaction is executed in. -/
structure Inclusion where
  bridge : StarkStateBridge.Storage
  world : World
  outOfGas : Bool

/-- Where every transaction is included, if it is. -/
abbrev Ledger := Eip1559Transaction → Option Inclusion

/-- The execution of a transaction to the bridge, if it succeeds. -/
def Inclusion.execute (i : Inclusion) (tx : Eip1559Transaction) :
    Option StarkStateBridge.Outcome :=
  if tx.data = propagateRootCalldata ∧ i.outOfGas = false then
    (StarkStateBridge.propagateRoot i.bridge tx.toAddress i.world
      ⟨tx.fromAddress, tx.value⟩).toOption
  else none

/-- The status of the receipt of an included transaction. -/
def Inclusion.status (i : Inclusion) (tx : Eip1559Transaction) : U64 :=
  if (i.execute tx).isSome then 1 else 0

/-- The receipts of the run are receipts of the ledger. -/
def Truthful (ledger : Ledger) (tr : Trace) : Prop :=
  ∀ e ∈ (journalOf tr).receipts, ∃ i, ledger e.1 = some i ∧ e.2.status = some (i.status e.1)

/-- A `propagateRoot` transaction of the run is included and succeeds, and the
bridge emits `RootPropagated`. -/
def Succeeded (ledger : Ledger) (config : Config) (value : U256) (tr : Trace) : Prop :=
  ∃ tx ∈ (journalOf tr).sent, IsPropagateRoot config value tx
    ∧ ∃ i o root, ledger tx = some i ∧ i.execute tx = some o ∧ o.event = .rootPropagated root

theorem Inclusion.status_eq_one {i : Inclusion} {tx : Eip1559Transaction} :
    i.status tx = 1 ↔ ∃ o root, i.execute tx = some o ∧ o.event = .rootPropagated root := by
  rw [status]
  cases hexec : i.execute tx with
  | none => simp
  | some o =>
      refine iff_of_true rfl ⟨o, ?_⟩
      rw [execute] at hexec
      split at hexec
      · cases hcall : StarkStateBridge.propagateRoot i.bridge tx.toAddress i.world
            ⟨tx.fromAddress, tx.value⟩ with
        | error e => rw [hcall] at hexec; cases hexec
        | ok o' =>
            rw [hcall] at hexec
            obtain rfl := Option.some.inj hexec
            obtain ⟨-, root, -, hsend⟩ := StarkStateBridge.propagateRoot_eq_ok.mp hcall
            obtain ⟨w', logs, -, rfl⟩ := StarkStateBridge.send_eq_ok.mp hsend
            exact ⟨root, rfl, rfl⟩
      · cases hexec

/-- One attempt: its `Ok` is a real success if and only if every receipt of
the run has status 1. -/
theorem attempt_ok_iff_status {ledger : Ledger} {config : Config} {value : U256}
    {tr : Trace} {r : Except StateBridgeError Unit}
    (hrun : Performs (propagateRoot config value).run tr (ret r))
    (htruth : Truthful ledger tr) :
    (r = .ok () → Succeeded ledger config value tr)
      ↔ ∀ e ∈ (journalOf tr).receipts, e.2.status = some 1 := by
  have hspec := hrun.wp (propagateRoot_spec config value ⟨[], []⟩)
  rw [← journalOf] at hspec
  cases r with
  | error e =>
      have hnone : (journalOf tr).receipts = [] := hspec
      rw [hnone]
      exact iff_of_true nofun nofun
  | ok _ =>
      obtain ⟨tx, receipt, hprop, hjournal⟩ := hspec
      rw [Truthful, hjournal] at htruth
      obtain ⟨i, hledger, hstatus⟩ := htruth (tx, receipt) (List.mem_singleton_self _)
      have hreceipt : (∀ e ∈ [(tx, receipt)], e.2.status = some 1) ↔ i.status tx = 1 := by
        rw [List.forall_mem_singleton, hstatus, Option.some.injEq]
      rw [hjournal, hreceipt, Inclusion.status_eq_one]
      constructor
      · -- only one transaction was sent, the one of the receipt
        intro h
        obtain ⟨tx', hsent, -, i', o, root, hledger', hexec, hevent⟩ := h rfl
        rw [hjournal, List.mem_singleton] at hsent
        subst hsent
        obtain rfl := Option.some.inj (hledger.symm.trans hledger')
        exact ⟨o, root, hexec, hevent⟩
      · rintro ⟨o, root, hexec, hevent⟩ -
        refine ⟨tx, ?_, hprop, i, o, root, hledger, hexec, hevent⟩
        rw [hjournal]
        exact List.mem_singleton_self _

/-- **Ok means success exactly when the receipt says so**: for
`propagate_root`, and for the attempt with which the retry loop returned
`Ok`. -/
theorem propagateRoot_ok_iff_status (ledger : Ledger) (config : Config) (value : U256) :
    (∀ tr r, Performs (propagateRoot config value).run tr (ret r) → Truthful ledger tr →
        ((r = .ok () → Succeeded ledger config value tr)
          ↔ ∀ e ∈ (journalOf tr).receipts, e.2.status = some 1))
      ∧ ∀ tr, Performs (propagateRootWithRetry config value) tr (ret (.ok ())) →
        ∃ before last, tr = before ++ last
          ∧ Performs (propagateRoot config value).run last (ret (.ok ()))
          ∧ (Truthful ledger last → (Succeeded ledger config value last
              ↔ ∀ e ∈ (journalOf last).receipts, e.2.status = some 1)) := by
  refine ⟨fun tr r => attempt_ok_iff_status, fun tr hrun => ?_⟩
  obtain ⟨before, last, rfl, hlast⟩ := retryLoop_ok hrun
  refine ⟨before, last, rfl, hlast, fun htruth => ?_⟩
  rw [← attempt_ok_iff_status hlast htruth]
  exact (true_imp_iff.symm.trans (imp_congr_left (by simp)))

/-! ## A bridge that changes between simulation and inclusion -/

/-- The relayer `9` of a bridge at `7`. -/
def sampleConfig : Config := ⟨7, 9, 1, 0⟩

/-- The transaction the relayer makes, with the gas filled in later. -/
def sampleTx (nonce : U256) (gas : Option U256) : Eip1559Transaction :=
  ⟨9, 7, propagateRootCalldata, 1, 1, 2, 10, nonce, gas⟩

/-- An attempt without an error; the receipt has the given status. -/
def sampleTrace (status : U64) : Trace :=
  [⟨.estimateEip1559Fees, .ok (2, 1)⟩, ⟨.getTransactionCount 9, .ok 0⟩,
    ⟨.fillTransaction (sampleTx 0 none), .ok (some 60000)⟩,
    ⟨.call (sampleTx 0 (some 90000)), .ok ()⟩,
    ⟨.signTransaction (sampleTx 0 (some 90000)), .ok ()⟩,
    ⟨.sendRawTransaction (sampleTx 0 (some 90000)), .ok ()⟩,
    ⟨.awaitReceipt (sampleTx 0 (some 90000)) 0, .ok (some ⟨some status, some 50000⟩)⟩]

theorem performs_sampleTrace (status : U64) :
    Performs (propagateRoot sampleConfig 10).run (sampleTrace status) (ret (.ok ())) :=
  .of_replay? rfl

theorem journalOf_sampleTrace (status : U64) :
    journalOf (sampleTrace status) = ⟨[sampleTx 0 (some 90000)],
      [(sampleTx 0 (some 90000), ⟨some status, some 50000⟩)]⟩ := rfl

/-- A bridge of the fee limit `feeLimit`, whose identity manager answers `5`. -/
def sampleInclusion (feeLimit : U256) : Inclusion where
  bridge := ⟨1, 3, 2, 4, feeLimit, 100, 100⟩
  world := ⟨4, ⟨0, fun _ => 0⟩, fun a => if a = 2 then some 5 else none, fun _ => false⟩
  outOfGas := false

theorem truthful_sampleTrace {feeLimit : U256} {status : U64}
    (h : (sampleInclusion feeLimit).status (sampleTx 0 (some 90000)) = status) :
    Truthful (fun _ => some (sampleInclusion feeLimit)) (sampleTrace status) := by
  intro e he
  rw [journalOf_sampleTrace, List.mem_singleton] at he
  subst he
  exact ⟨_, rfl, congrArg some h.symm⟩

/-- The fee limit is lowered below the attached value before the inclusion:
the transaction reverts, and `propagate_root` returns `Ok`. -/
theorem reverted_transaction_is_ok :
    Performs (propagateRoot sampleConfig 10).run (sampleTrace 0) (ret (.ok ()))
      ∧ Truthful (fun _ => some (sampleInclusion 5)) (sampleTrace 0)
      ∧ ¬ Succeeded (fun _ => some (sampleInclusion 5)) sampleConfig 10 (sampleTrace 0) := by
  refine ⟨performs_sampleTrace 0, truthful_sampleTrace (by decide), ?_⟩
  rintro ⟨tx, htx, -, i, o, root, hledger, hexec, -⟩
  rw [journalOf_sampleTrace, List.mem_singleton] at htx
  subst htx
  obtain rfl := Option.some.inj hledger
  have hnone : (sampleInclusion 5).execute (sampleTx 0 (some 90000)) = none := rfl
  rw [hnone] at hexec
  cases hexec

/-- With a limit above the attached value the success is real. -/
theorem propagateRoot_ok_iff_status_sample :
    Succeeded (fun _ => some (sampleInclusion 50)) sampleConfig 10 (sampleTrace 1) :=
  ((propagateRoot_ok_iff_status (fun _ => some (sampleInclusion 50)) sampleConfig 10).1
    (sampleTrace 1) (.ok ()) (performs_sampleTrace 1)
    (truthful_sampleTrace (by decide))).mpr
    (by rw [journalOf_sampleTrace]; simp) rfl

end WorldIDBridge.Service
