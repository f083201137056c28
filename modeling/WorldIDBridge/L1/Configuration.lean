import WorldIDBridge.L1.StarkStateBridge
import WorldIDBridge.Lib.TransitionRun

/-!
# The configuration of the bridge over its life

Six cells configure the bridge: three addresses and three fee limits. This
module follows them from the constructor through any transactions: which
of them can be zero, and for which call values the three paying functions
then go through.
-/

namespace WorldIDBridge.L1

open Checked TransitionRun

namespace StarkStateBridge

/-- A transaction that can change the bridge: a call by any account, in the
world as it is at that time, or a hand-over of the ownership. -/
inductive Transaction where
  | call (w : World) (msg : Msg) (call : BridgeCall)
  /-- `transferOwnership` or `renounceOwnership`. -/
  | transferOwnership (newOwner : EthAddress)

/-- The bridge after a transaction: a revert leaves it as it was. -/
def transact (this : EthAddress) (self : Storage) : Transaction → Storage
  | .call w msg call =>
      match exec self this w msg call with
      | .ok o => o.bridge
      | .error _ => self
  | .transferOwnership newOwner => { self with owner := newOwner }

theorem construct_eq_ok {sender worldIDIdentityManager : EthAddress}
    {starkWorldIDAddress : U256} {starknetCoreContract : EthAddress} {b : Storage} :
    construct sender worldIDIdentityManager starkWorldIDAddress starknetCoreContract = .ok b
      ↔ worldIDIdentityManager ≠ 0 ∧ starkWorldIDAddress ≠ 0
        ∧ b = ⟨sender, starkWorldIDAddress, worldIDIdentityManager, starknetCoreContract,
            defaultStarkFeeLimit, defaultStarkFeeLimit, defaultStarkFeeLimit⟩ := by
  rw [construct, failIf_bind_eq_ok, pure_eq_ok, Except.ok.injEq, eq_comm (a := b), not_or,
    and_assoc]

/-- What a transaction leaves of the bridge: what it was, with another owner
perhaps, or one cell set by a call whose guard held. -/
theorem transact_cases (this : EthAddress) (self : Storage) (t : Transaction) :
    (∃ owner, transact this self t = { self with owner := owner })
      ∨ ∃ w msg call, t = .call w msg call ∧ Guard self w msg call
          ∧ transact this self t = configure self call := by
  cases t with
  | transferOwnership newOwner => exact .inl ⟨newOwner, rfl⟩
  | call w msg call =>
      cases hexec : exec self this w msg call with
      | error e => exact .inl ⟨self.owner, by simp only [transact, hexec]⟩
      | ok o =>
          have hguard := (exec_eq_ok.mp hexec).1
          rcases exec_cases hexec with ⟨-, hbridge, -, -⟩ | ⟨_, _, -, -, -, hbridge, -, -⟩
          · exact .inr ⟨w, msg, call, rfl, hguard, by simp only [transact, hexec, hbridge]⟩
          · exact .inl ⟨self.owner, by simp only [transact, hexec, hbridge]⟩

/-! ## Nonzero cells -/

/-- The cells both the constructor and the setters guard. -/
structure Guarded (b : Storage) : Prop where
  worldIDIdentityManager : b.worldIDIdentityManager ≠ 0
  starkWorldIDAddress : b.starkWorldIDAddress ≠ 0
  feeLimitPropagateRoot : b.feeLimitPropagateRoot ≠ 0
  feeLimitSetRootHistoryExpiry : b.feeLimitSetRootHistoryExpiry ≠ 0
  feeLimitTransferOwnership : b.feeLimitTransferOwnership ≠ 0

/-- All three addresses and all three fee limits are nonzero. -/
structure Configured (b : Storage) : Prop extends Guarded b where
  starknetCoreContract : b.starknetCoreContract ≠ 0

theorem construct_guarded {sender worldIDIdentityManager : EthAddress}
    {starkWorldIDAddress : U256} {starknetCoreContract : EthAddress} {b : Storage}
    (h : construct sender worldIDIdentityManager starkWorldIDAddress starknetCoreContract
      = .ok b) : Guarded b := by
  obtain ⟨hmanager, haddress, rfl⟩ := construct_eq_ok.mp h
  have hlimit : defaultStarkFeeLimit ≠ 0 := by decide
  exact ⟨hmanager, haddress, hlimit, hlimit, hlimit⟩

/-- A setter sets its own cell, to a nonzero value. -/
theorem Guarded.configure {b : Storage} (h : Guarded b) {w : World} {msg : Msg}
    {call : BridgeCall} (hguard : Guard b w msg call) : Guarded (configure b call) := by
  cases call with
  | propagateRoot => exact h
  | changeL1StateBridgeAddress a => exact h
  | setRootHistoryExpiry e => exact h
  | setFeeLimitPropagateRoot x => exact { h with feeLimitPropagateRoot := hguard.2.2 }
  | setFeeLimitSetRootHistoryExpiry x =>
      exact { h with feeLimitSetRootHistoryExpiry := hguard.2.2 }
  | setFeeLimitTransferOwnership x =>
      exact { h with feeLimitTransferOwnership := hguard.2.2 }
  | setWorldIDIdentityManager a => exact { h with worldIDIdentityManager := hguard.2.2 }
  | setStarkWorldIDAddress x => exact { h with starkWorldIDAddress := hguard.2.2 }
  | setStarknetCoreContract a => exact ⟨h.1, h.2, h.3, h.4, h.5⟩

theorem Guarded.transact {b : Storage} (h : Guarded b) (this : EthAddress)
    (t : Transaction) : Guarded (transact this b t) := by
  rcases transact_cases this b t with ⟨owner, hb⟩ | ⟨w, msg, call, -, hguard, hb⟩
  · rw [hb]
    exact ⟨h.1, h.2, h.3, h.4, h.5⟩
  · rw [hb]
    exact h.configure hguard

theorem Guarded.run {b : Storage} (h : Guarded b) (this : EthAddress)
    (ts : List Transaction) : Guarded (run (StarkStateBridge.transact this) b ts) :=
  run_invariant (StarkStateBridge.transact this) (P := fun _ _ => True)
    (fun _ t hb _ => hb.transact this t) h (along_true _ b ts)

/-- The core's address is only ever replaced by a nonzero one. -/
theorem core_ne_zero_of_transact {b : Storage} (h : b.starknetCoreContract ≠ 0)
    (this : EthAddress) (t : Transaction) :
    (transact this b t).starknetCoreContract ≠ 0 := by
  rcases transact_cases this b t with ⟨owner, hb⟩ | ⟨w, msg, call, -, hguard, hb⟩
  · rw [hb]
    exact h
  · rw [hb]
    cases call with
    | setStarknetCoreContract a => exact hguard.2.2
    | _ => exact h

/-- **The configuration is complete in every reachable state exactly when
the constructor was given a nonzero core**: the other five cells are
nonzero in every deployment. -/
theorem configured_iff {sender worldIDIdentityManager : EthAddress}
    {starkWorldIDAddress : U256} {starknetCoreContract : EthAddress} {b : Storage}
    (hconstruct : construct sender worldIDIdentityManager starkWorldIDAddress
      starknetCoreContract = .ok b) (this : EthAddress) :
    (∀ ts, Configured (run (transact this) b ts)) ↔ starknetCoreContract ≠ 0 := by
  have hguarded := construct_guarded hconstruct
  obtain ⟨-, -, rfl⟩ := construct_eq_ok.mp hconstruct
  constructor
  · intro h
    exact (h []).starknetCoreContract
  · intro hcore ts
    refine { hguarded.run this ts with starknetCoreContract := ?_ }
    exact run_invariant (transact this) (I := fun b => b.starknetCoreContract ≠ 0)
      (P := fun _ _ => True) (fun _ t hb _ => core_ne_zero_of_transact hb this t)
      hcore (along_true _ _ ts)

/-- The bridge that account `1` deploys for the manager `2` and the core
`3`. -/
def sampleBridge : Storage :=
  ⟨1, 7, 2, 3, defaultStarkFeeLimit, defaultStarkFeeLimit, defaultStarkFeeLimit⟩

theorem construct_sampleBridge : construct 1 2 7 3 = .ok sampleBridge := rfl

/-- The core at address `3`, and a manager whose latest root is `5`. -/
def sampleWorld : World := ⟨3, ⟨0, fun _ => 0⟩, fun _ => some 5, fun _ => false⟩

theorem configured_sample :
    Configured (run (transact 9) sampleBridge
      [.call sampleWorld ⟨1, 0⟩ (.setStarknetCoreContract 5), .transferOwnership 4]) :=
  (configured_iff construct_sampleBridge 9).mpr (by decide) _

/-- A deployment with the zero core goes through, unlike one with another
address zero. -/
theorem construct_without_core :
    (∃ b, construct 1 2 7 0 = .ok b ∧ ¬ Configured b)
      ∧ construct 1 0 7 3 = .error .addressZero
      ∧ construct 1 2 0 3 = .error .addressZero :=
  ⟨⟨_, rfl, fun h => h.starknetCoreContract rfl⟩, rfl, rfl⟩

/-! ## The fee window -/

/-- The fee limit of a function that sends a message. -/
def feeLimit (self : Storage) : BridgeCall → Option U256
  | .propagateRoot => some self.feeLimitPropagateRoot
  | .changeL1StateBridgeAddress _ => some self.feeLimitTransferOwnership
  | .setRootHistoryExpiry _ => some self.feeLimitSetRootHistoryExpiry
  | _ => none

/-- What a sending function asks of its caller and its argument, the value
apart. -/
def Permitted (self : Storage) (w : World) (sender : EthAddress) : BridgeCall → Prop
  | .propagateRoot => (w.latestRoot self.worldIDIdentityManager).isSome
  | .changeL1StateBridgeAddress a => sender = self.owner ∧ a ≠ 0
  | .setRootHistoryExpiry _ => sender = self.owner
  | _ => False

/-- The call returns. -/
def Succeeds (self : Storage) (this : EthAddress) (w : World) (msg : Msg)
    (call : BridgeCall) : Prop :=
  ∃ o, exec self this w msg call = .ok o

/-- A permitted call passes its guard below its limit. -/
theorem guard_of_permitted {self : Storage} {w : World} {sender : EthAddress}
    {call : BridgeCall} {limit v : U256} (hlimit : feeLimit self call = some limit)
    (h : Permitted self w sender call) :
    Guard self w ⟨sender, v⟩ call ↔ v < limit := by
  cases call with
  | propagateRoot =>
      obtain rfl := Option.some.inj hlimit
      exact and_iff_left h
  | changeL1StateBridgeAddress a =>
      obtain rfl := Option.some.inj hlimit
      exact ⟨fun hg => hg.2.1, fun hv => ⟨h.1, hv, h.2⟩⟩
  | setRootHistoryExpiry e =>
      obtain rfl := Option.some.inj hlimit
      exact and_iff_right h
  | _ => exact absurd h id

/-- A permitted call has something to send. -/
theorem request_of_permitted {self : Storage} {w : World} {sender : EthAddress}
    {call : BridgeCall} (h : Permitted self w sender call) :
    ∃ selector payload, request self w call = some (selector, payload) := by
  cases call with
  | propagateRoot =>
      obtain ⟨root, hroot⟩ := Option.isSome_iff_exists.mp h
      exact ⟨_, _, by rw [request, hroot]; rfl⟩
  | changeL1StateBridgeAddress a => exact ⟨_, _, rfl⟩
  | setRootHistoryExpiry e => exact ⟨_, _, rfl⟩
  | _ => exact absurd h id

/-- The core takes a message for an accepted fee, and for no other. -/
theorem send_succeeds_iff {self : Storage} {this : EthAddress} {w : World} {msg : Msg}
    {selector : U256} {payload : List U256} {event : Event}
    (hcore : self.starknetCoreContract = w.coreAddress) :
    (∃ o, send self this w msg selector payload event = .ok o)
      ↔ StarknetMessaging.FeeAccepted msg.value := by
  simp only [send_eq_ok, World.callSendMessageToL2_eq_ok]
  constructor
  · intro ⟨_, _, _, hsend, _⟩
    rcases hsend with ⟨-, hfee, -⟩ | ⟨hne, -⟩
    · exact hfee
    · exact absurd hcore hne
  · intro hfee
    exact ⟨_, _, _, .inl ⟨hcore, hfee, rfl⟩, rfl⟩

/-- **The window the two contracts leave**: positive, below the limit, and
at most one ether. -/
theorem succeeds_iff {self : Storage} {this : EthAddress} {w : World}
    {sender : EthAddress} {call : BridgeCall} {limit v : U256}
    (hcore : self.starknetCoreContract = w.coreAddress)
    (hlimit : feeLimit self call = some limit) (h : Permitted self w sender call) :
    Succeeds self this w ⟨sender, v⟩ call
      ↔ 0 < v ∧ v < limit ∧ v ≤ StarknetMessaging.maxL1MsgFee := by
  obtain ⟨selector, payload, hreq⟩ := request_of_permitted h
  have heff : (∃ o, Effect self this w ⟨sender, v⟩ call o)
      ↔ StarknetMessaging.FeeAccepted v := by
    simp only [Effect, hreq]
    exact send_succeeds_iff hcore
  simp only [Succeeds, exec_eq_ok, exists_and_left, heff, guard_of_permitted hlimit h,
    StarknetMessaging.FeeAccepted]
  exact and_left_comm

theorem feeLimit_ne_zero {b : Storage} (h : Guarded b) {call : BridgeCall} {limit : U256}
    (hlimit : feeLimit b call = some limit) : limit ≠ 0 := by
  cases call with
  | propagateRoot => exact Option.some.inj hlimit ▸ h.feeLimitPropagateRoot
  | changeL1StateBridgeAddress a => exact Option.some.inj hlimit ▸ h.feeLimitTransferOwnership
  | setRootHistoryExpiry e => exact Option.some.inj hlimit ▸ h.feeLimitSetRootHistoryExpiry
  | _ => cases hlimit

/-- The values up to the limit and the values below it differ in one. -/
theorem window_iff {limit v max : U256} (hlimit : limit ≠ 0) :
    ((0 < v ∧ v < limit ∧ v ≤ max) ↔ (0 < v ∧ v ≤ limit ∧ v ≤ max))
      ↔ ¬ (v = limit ∧ v ≤ max) := by
  bv_omega

/-- **The documented fee window, up to its upper end**: in every reachable
state, for a permitted call of any of the three functions, a value is taken
as documented exactly when it is not the limit itself (at most one ether);
and some value is taken exactly when the limit is not one wei. -/
theorem feeWindow_iff {deployer worldIDIdentityManager : EthAddress}
    {starkWorldIDAddress : U256} {starknetCoreContract : EthAddress} {b₀ : Storage}
    (hconstruct : construct deployer worldIDIdentityManager starkWorldIDAddress
      starknetCoreContract = .ok b₀) (this : EthAddress) (ts : List Transaction)
    (w : World) (sender : EthAddress) (call : BridgeCall) (limit : U256) :
    let b := run (transact this) b₀ ts
    b.starknetCoreContract = w.coreAddress → feeLimit b call = some limit →
    Permitted b w sender call →
    (∀ v, (Succeeds b this w ⟨sender, v⟩ call
          ↔ 0 < v ∧ v ≤ limit ∧ v ≤ StarknetMessaging.maxL1MsgFee)
        ↔ ¬ (v = limit ∧ v ≤ StarknetMessaging.maxL1MsgFee))
      ∧ ((∃ v, Succeeds b this w ⟨sender, v⟩ call) ↔ limit ≠ 1) := by
  intro b hcore hlimit hperm
  have hne : limit ≠ 0 := feeLimit_ne_zero ((construct_guarded hconstruct).run this ts) hlimit
  have hwindow : ∀ v, Succeeds b this w ⟨sender, v⟩ call
      ↔ 0 < v ∧ v < limit ∧ v ≤ StarknetMessaging.maxL1MsgFee :=
    fun v => succeeds_iff hcore hlimit hperm
  refine ⟨fun v => ?_, ?_⟩
  · rw [hwindow v]
    exact window_iff hne
  · simp only [hwindow]
    constructor
    · rintro ⟨v, hpos, hlt, -⟩
      bv_omega
    · intro hone
      refine ⟨1, by decide, ?_, by decide⟩
      bv_omega

/-- One wei below the default limit is taken as documented. -/
theorem feeWindow_sample :
    Succeeds sampleBridge 9 sampleWorld ⟨4, defaultStarkFeeLimit - 1⟩ .propagateRoot
      ↔ 0 < defaultStarkFeeLimit - 1 ∧ defaultStarkFeeLimit - 1 ≤ defaultStarkFeeLimit
        ∧ defaultStarkFeeLimit - 1 ≤ StarknetMessaging.maxL1MsgFee :=
  ((feeWindow_iff construct_sampleBridge 9 [] sampleWorld 4 .propagateRoot
    defaultStarkFeeLimit rfl rfl rfl).1 (defaultStarkFeeLimit - 1)).mpr (by decide)

/-- The owner sets the limit of `propagateRoot` to one wei. -/
def disable : Transaction := .call sampleWorld ⟨1, 0⟩ (.setFeeLimitPropagateRoot 1)

/-- The limit itself is refused, though it is not higher than the limit; and
a limit of one wei is accepted and leaves no value at all. -/
theorem limit_refused :
    (¬ Succeeds sampleBridge 9 sampleWorld ⟨4, defaultStarkFeeLimit⟩ .propagateRoot
      ∧ 0 < defaultStarkFeeLimit ∧ defaultStarkFeeLimit ≤ StarknetMessaging.maxL1MsgFee)
    ∧ (transact 9 sampleBridge disable).feeLimitPropagateRoot = 1
    ∧ ∀ v, ¬ Succeeds (transact 9 sampleBridge disable) 9 sampleWorld ⟨4, v⟩
        .propagateRoot := by
  refine ⟨⟨?_, by decide, by decide⟩, rfl, fun v hv => ?_⟩
  · intro hok
    have hwindow := (succeeds_iff rfl rfl (by rfl)).mp hok
    exact absurd hwindow.2.1 (by decide)
  · have hlimit : feeLimit (transact 9 sampleBridge disable) .propagateRoot = some 1 := rfl
    have hwindow := (succeeds_iff rfl hlimit (by rfl)).mp hv
    bv_omega

end StarkStateBridge

end WorldIDBridge.L1
