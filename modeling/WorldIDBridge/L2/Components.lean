import WorldIDBridge.L2.Cairo
import Mathlib.Logic.Function.Basic

/-!
# The components of StarkWorldID

`CrossDomainOwnable` keeps the L1 address whose messages are obeyed;
`WorldID` keeps the root history. Every function is the source's, with the
storage (and, where the source asks for it, the block timestamp) passed
in. The lemma beside each function says exactly when it returns and with
what; later modules never unfold the functions.
-/

namespace WorldIDBridge.L2

open Checked

/-! ## CrossDomainOwnable -/

namespace CrossDomainOwnable

structure Storage where
  l1Owner : EthAddress
  deriving DecidableEq, Repr

structure NewL1Owner where
  previousL1Owner : EthAddress
  newL1Owner : EthAddress
  deriving DecidableEq, Repr

/-- `_initialize`. -/
def initializeOwner (self : Storage) (owner : EthAddress) : Storage × NewL1Owner :=
  ({ self with l1Owner := owner }, ⟨self.l1Owner, owner⟩)

def onlyCrossDomainOwner (self : Storage) (fromAddress : Felt252) :
    Except Panic Unit := do
  assert (fromAddress ≠ 0) .zeroAddressCaller
  assert (fromAddress = self.l1Owner.toFelt) .notOwner

def transferOwnership (self : Storage) (fromAddress : Felt252)
    (newOwner : EthAddress) : Except Panic (Storage × NewL1Owner) := do
  assert (newOwner.toFelt ≠ 0) .zeroAddressOwner
  onlyCrossDomainOwner self fromAddress
  return ({ self with l1Owner := newOwner }, ⟨self.l1Owner, newOwner⟩)

theorem onlyCrossDomainOwner_eq_ok {self : Storage} {fromAddress : Felt252} :
    onlyCrossDomainOwner self fromAddress = .ok ()
      ↔ fromAddress ≠ 0 ∧ fromAddress = self.l1Owner.toFelt := by
  rw [onlyCrossDomainOwner, assert_bind_eq_ok, assert_eq_ok]

theorem transferOwnership_eq_ok {self : Storage} {fromAddress : Felt252}
    {newOwner : EthAddress} {r : Storage × NewL1Owner} :
    transferOwnership self fromAddress newOwner = .ok r
      ↔ newOwner ≠ 0 ∧ onlyCrossDomainOwner self fromAddress = .ok ()
        ∧ r = (⟨newOwner⟩, ⟨self.l1Owner, newOwner⟩) := by
  rw [transferOwnership, assert_bind_eq_ok, bind_eq_ok, ne_eq,
    EthAddress.toFelt_eq_zero]
  constructor
  · rintro ⟨hne, ⟨⟩, howner, hr⟩
    exact ⟨hne, howner, (Except.ok.inj hr).symm⟩
  · rintro ⟨hne, howner, rfl⟩
    exact ⟨hne, (), howner, rfl⟩

end CrossDomainOwnable

/-! ## The tree depth validator -/

def validate (treeDepth : U8) : Bool :=
  let minDepth : U8 := 16
  let maxDepth : U8 := 32
  treeDepth ≥ minDepth && treeDepth ≤ maxDepth

theorem validate_iff (treeDepth : U8) :
    validate treeDepth = true ↔ 16 ≤ treeDepth.toNat ∧ treeDepth.toNat ≤ 32 := by
  simp [validate, BitVec.le_def]

/-! ## WorldID -/

namespace WorldID

/-- The timestamp of a root the history does not have. -/
def nullRootTime : U8 := 0

/-- The expiry a fresh contract starts with, in seconds. -/
def oneWeek : Felt252 := 604800

structure Storage where
  treeDepth : U8
  rootHistoryExpiry : Felt252
  latestRoot : U256
  rootHistory : U256 → U128

inductive Event where
  | rootAdded (root : U256) (timestamp : U128)
  | rootHistoryExpirySet (newExpiry : Felt252)
  deriving DecidableEq, Repr

/-- A root is valid if it is the latest root, or not the latest root but
not expired. -/
def requireValidRoot (self : Storage) (root : U256) (blockTimestamp : U64) :
    Except Panic Unit :=
  if root = self.latestRoot then .ok ()
  else do
    let rootTimestamp : U256 := (self.rootHistory root).setWidth 256
    let currentTimestamp : U256 := blockTimestamp.setWidth 256
    assert (rootTimestamp ≠ 0) .nonExistentRoot
    let age ← u256Sub currentTimestamp rootTimestamp
    assert (age ≤ feltToU256 self.rootHistoryExpiry) .expiredRoot

def latestRoot (self : Storage) : Except Panic U256 := do
  assert (self.latestRoot ≠ 0) .noRootsSeen
  return self.latestRoot

/-- `_intialize` (the source's spelling). -/
def intialize (self : Storage) (treeDepth : U8) : Except Panic Storage := do
  let self := { self with rootHistoryExpiry := oneWeek }
  assert (validate treeDepth = true) .unsupportedTreeDepth
  return { self with treeDepth := treeDepth }

/-- `_receive_root`: a root that has a timestamp is refused. -/
def receiveRoot (self : Storage) (newRoot : U256) (blockTimestamp : U64) :
    Except Panic (Storage × Event) := do
  let existingTimestamp : U128 := self.rootHistory newRoot
  assert (existingTimestamp = nullRootTime.setWidth 128) .cannotOverwriteRoot
  let currTimestamp : U128 := blockTimestamp.setWidth 128
  return ({ self with
      latestRoot := newRoot
      rootHistory := Function.update self.rootHistory newRoot currTimestamp },
    .rootAdded newRoot currTimestamp)

/-- `_set_root_history_expiry`. -/
def setRootHistoryExpiry (self : Storage) (expiryTime : Felt252) : Storage × Event :=
  ({ self with rootHistoryExpiry := expiryTime }, .rootHistoryExpirySet expiryTime)

theorem intialize_eq_ok {self r : Storage} {treeDepth : U8} :
    intialize self treeDepth = .ok r
      ↔ validate treeDepth = true
        ∧ r = { self with rootHistoryExpiry := oneWeek, treeDepth := treeDepth } := by
  rw [intialize, assert_bind_eq_ok, pure_eq_ok, Except.ok.injEq, eq_comm (a := r)]

theorem receiveRoot_eq_ok {self : Storage} {newRoot : U256} {now : U64}
    {r : Storage × Event} :
    receiveRoot self newRoot now = .ok r
      ↔ self.rootHistory newRoot = 0
        ∧ r = ({ self with
              latestRoot := newRoot
              rootHistory :=
                Function.update self.rootHistory newRoot (now.setWidth 128) },
            .rootAdded newRoot (now.setWidth 128)) := by
  rw [receiveRoot, assert_bind_eq_ok, pure_eq_ok, Except.ok.injEq, eq_comm (a := r)]
  rfl

theorem receiveRoot_known {self : Storage} {newRoot : U256} (now : U64)
    (h : self.rootHistory newRoot ≠ 0) :
    receiveRoot self newRoot now = .error .cannotOverwriteRoot := by
  have hne : ¬ self.rootHistory newRoot = nullRootTime.setWidth 128 := h
  rw [receiveRoot, assert_neg hne, error_bind]

theorem latestRoot_eq (self : Storage) :
    latestRoot self
      = if self.latestRoot = 0 then .error .noRootsSeen else .ok self.latestRoot := by
  by_cases h : self.latestRoot = 0
  · rw [latestRoot, assert_neg (not_not_intro h), error_bind, if_pos h]
  · rw [latestRoot, assert_pos h, ok_bind, pure_eq_ok, if_neg h]

theorem requireValidRoot_latest (self : Storage) (now : U64) :
    requireValidRoot self self.latestRoot now = .ok () := if_pos rfl

/-- A root that is neither the latest nor in the history. -/
theorem requireValidRoot_unknown {self : Storage} {root : U256} {now : U64}
    (hne : root ≠ self.latestRoot) (h : self.rootHistory root = 0) :
    requireValidRoot self root now = .error .nonExistentRoot := by
  have hz : ¬ (0 : U128).setWidth 256 ≠ 0 := not_not_intro rfl
  simp only [requireValidRoot, if_neg hne, h, assert_neg hz, error_bind]

/-- A root of the history that is not the latest: the verdict is its age,
and the subtraction is safe because its timestamp is not in the future. -/
theorem requireValidRoot_known {self : Storage} {root : U256} {now : U64}
    (hne : root ≠ self.latestRoot) (h : self.rootHistory root ≠ 0)
    (hle : (self.rootHistory root).toNat ≤ now.toNat) :
    requireValidRoot self root now
      = if now.toNat - (self.rootHistory root).toNat ≤ self.rootHistoryExpiry.val
        then .ok () else .error .expiredRoot := by
  have hroot : ((self.rootHistory root).setWidth 256).toNat
      = (self.rootHistory root).toNat :=
    BitVec.toNat_setWidth_of_le (by omega)
  have hnow : (now.setWidth 256).toNat = now.toNat :=
    BitVec.toNat_setWidth_of_le (by omega)
  have hnz : (self.rootHistory root).setWidth 256 ≠ 0 := by
    intro hz
    refine h (BitVec.eq_of_toNat_eq ?_)
    rw [← hroot, hz]
    rfl
  have hsub : (self.rootHistory root).setWidth 256 ≤ now.setWidth 256 := by
    rw [BitVec.le_def, hroot, hnow]
    exact hle
  have hage : now.setWidth 256 - (self.rootHistory root).setWidth 256
        ≤ feltToU256 self.rootHistoryExpiry
      ↔ now.toNat - (self.rootHistory root).toNat ≤ self.rootHistoryExpiry.val := by
    rw [BitVec.le_def, BitVec.toNat_sub_of_le hsub, hroot, hnow, feltToU256_toNat]
  rw [requireValidRoot, if_neg hne]
  simp only [assert_pos hnz, u256Sub, if_pos hsub, ok_bind]
  by_cases hx : now.toNat - (self.rootHistory root).toNat
      ≤ self.rootHistoryExpiry.val
  · rw [assert_pos (hage.mpr hx), if_pos hx]
  · rw [assert_neg (fun hc => hx (hage.mp hc)), if_neg hx]

end WorldID

end WorldIDBridge.L2
