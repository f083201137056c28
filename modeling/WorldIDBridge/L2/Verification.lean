import WorldIDBridge.L2.Components
import WorldIDBridge.L2.Groth16VerifierConstants
import Mathlib.Algebra.BigOperators.Group.List.Basic
import Mathlib.Data.ZMod.Basic

/-!
# Proof verification

`verify_groth16_proof_bn254` calls the Garaga library and a deployed class
of it for the curve arithmetic. Their functions are the fields of `Garaga`;
what this contract adds is modelled: the root check, the calldata of the
multi-scalar product, and which values reach the pairing check.
-/

namespace WorldIDBridge.L2

open Checked

namespace Groth16

/-- The functions of the library, with `none` for a panic. The pairing
check comes with its table of precomputed lines. -/
structure Garaga (H Q : Type) where
  deserializeFullProofWithHints : List Felt252 → Option (FullProofWithHints H Q)
  g1OnCurve : G1Point → U32 → Bool
  g2OnCurve : G2Point → U32 → Bool
  /-- The entry point `msm_g1` of the deployed class; the hint is what is
  left of its calldata. -/
  msmG1 : Span G1Point → Span U256 → U32 → List Felt252 → Option G1Point
  ecSafeAdd : G1Point → G1Point → U32 → G1Point
  negate : G1Point → U32 → G1Point
  multiPairingCheck : G1G2Pair → G1G2Pair → G1G2Pair → E12D → H → Q → Bool

/-- What a verification can panic with. -/
inductive VerifyPanic where
  | worldID (e : Panic)
  | deserialization
  | indexOutOfBounds
  | notOnCurve
  | malformedVK
  | libraryCall
  | unwrapNone
  deriving DecidableEq, Repr

/-! ## The library call -/

/-- What the wrapper of `msm_g1` reads from its calldata. -/
structure MsmCall where
  points : Span G1Point
  scalars : Span U256
  curveIndex : U32
  hint : List Felt252

def MsmCall.decode (calldata : List Felt252) : Option MsmCall := do
  let (points, calldata) ← Serde.deserialize calldata
  let (scalars, calldata) ← Serde.deserialize calldata
  let (curveIndex, hint) ← Serde.deserialize calldata
  return ⟨points, scalars, curveIndex, hint⟩

/-- The calldata the verifier assembles: two spans, the curve identifier of
BN254, and the hint as it is. -/
def msmCalldata (points : Span G1Point) (publicInputs : Span U256) (hint : Span Felt252) :
    List Felt252 :=
  Serde.serialize points ++ (Serde.serialize publicInputs ++ (0 :: hint.elems))

/-- **The calldata is read as it was meant**, for every number of inputs and
every hint. -/
theorem decode_msmCalldata (points : Span G1Point) (publicInputs : Span U256)
    (hint : Span Felt252) :
    MsmCall.decode (msmCalldata points publicInputs hint)
      = some ⟨points, publicInputs, 0, hint.elems⟩ := by
  have hcurve : (0 : Felt252) :: hint.elems = Serde.serialize (0 : U32) ++ hint.elems := rfl
  simp only [MsmCall.decode, msmCalldata, hcurve, Serde.deserialize_serialize,
    Option.bind_eq_bind, Option.bind_some]
  rfl

variable {H Q : Type}

/-- `library_call_syscall` of `msm_g1`: the answer is serialised. -/
def Garaga.libraryCallMsmG1 (g : Garaga H Q) (calldata : List Felt252) :
    Option (List Felt252) := do
  let call ← MsmCall.decode calldata
  let p ← g.msmG1 call.points call.scalars call.curveIndex call.hint
  return Serde.serialize p

/-- The point `vk_x` of the public inputs. -/
def publicInputPoint (g : Garaga H Q) (publicInputs : Span U256) (msmHint : Span Felt252) :
    Except VerifyPanic G1Point :=
  match ic.elems with
  | [] => .error .malformedVK
  | [p] => .ok p
  | p :: _ => do
      let points ← expect (ic.slice? 1 nPublicInputs) .indexOutOfBounds
      let serialized ← expect (g.libraryCallMsmG1 (msmCalldata points publicInputs msmHint))
        .libraryCall
      let (sum, _) ← expect (Serde.deserialize serialized) .unwrapNone
      return g.ecSafeAdd sum p 0

end Groth16

open Groth16

variable {H Q : Type}

def WorldID.verifyGroth16ProofBn254 (g : Garaga H Q) (self : WorldID.Storage)
    (blockTimestamp : U64) (fullProofWithHints : List Felt252) :
    Except VerifyPanic (Option (Span U256)) := do
  let fph ← expect (g.deserializeFullProofWithHints fullProofWithHints) .deserialization
  let proof := fph.groth16Proof
  let root ← expect proof.publicInputs.elems[0]? .indexOutOfBounds
  (WorldID.requireValidRoot self root blockTimestamp).mapError .worldID
  assert (g.g1OnCurve proof.a 0 = true) .notOnCurve
  assert (g.g2OnCurve proof.b 0 = true) .notOnCurve
  assert (g.g1OnCurve proof.c 0 = true) .notOnCurve
  let vkX ← publicInputPoint g proof.publicInputs fph.msmHint
  let check := g.multiPairingCheck ⟨vkX, vk.gammaG2⟩ ⟨proof.c, vk.deltaG2⟩
    ⟨g.negate proof.a 0, proof.b⟩ vk.alphaBetaMillerLoopResult fph.mpcheckHint fph.smallQ
  if check = true then return some proof.publicInputs
  else return none

namespace Groth16

/-! ## What a verified proof was checked for -/

/-- The points the scalars are combined with: `ic[1]` to `ic[4]`. -/
def icPoints : Span G1Point := ⟨ic.elems.drop 1, by decide⟩

/-- The first point of the key, `ic[0]`. -/
def ic0 : G1Point := ic.elems.get ⟨0, by decide⟩

/-- The key's points are on the curve. -/
theorem ic_onCurve : ∀ p ∈ ic.elems, p.OnCurve := by decide

/-- The sum of scalar times point. -/
def combine {G : Type} [AddCommGroup G] (point : G1Point → G) (scalars : List U256)
    (points : List G1Point) : G :=
  (List.zipWith (fun x p => x.toNat • point p) scalars points).sum

/-- What the library is taken to compute: points stand for the elements of a
group, each element in one pair of coordinates; the multi-scalar product
panics unless there are as many scalars as points and is otherwise the sum,
and `ec_safe_add` is the addition. -/
structure Garaga.Computes (g : Garaga H Q) {G : Type} [AddCommGroup G]
    (point : G1Point → G) (ofPoint : G → G1Point) : Prop where
  point_ofPoint : ∀ x, point (ofPoint x) = x
  msmG1_length : ∀ points scalars hint, scalars.elems.length ≠ points.elems.length →
    g.msmG1 points scalars 0 hint = none
  msmG1_sum : ∀ points scalars hint p, (∀ q ∈ points.elems, q.OnCurve) →
    g.msmG1 points scalars 0 hint = some p →
    p = ofPoint (combine point scalars.elems points.elems)
  ecSafeAdd : ∀ x p, p.OnCurve → g.ecSafeAdd (ofPoint x) p 0 = ofPoint (x + point p)

theorem libraryCallMsmG1_msmCalldata (g : Garaga H Q) (points : Span G1Point)
    (publicInputs : Span U256) (hint : Span Felt252) :
    g.libraryCallMsmG1 (msmCalldata points publicInputs hint)
      = (g.msmG1 points publicInputs 0 hint.elems).map Serde.serialize := by
  rw [Garaga.libraryCallMsmG1, decode_msmCalldata, Option.bind_eq_bind, Option.bind_some,
    Option.map_eq_bind]
  rfl

/-- The verifier's point is what the library answers, added to `ic[0]`. -/
theorem publicInputPoint_eq_ok {g : Garaga H Q} {publicInputs : Span U256}
    {msmHint : Span Felt252} {vkX : G1Point} :
    publicInputPoint g publicInputs msmHint = .ok vkX
      ↔ ∃ sum, g.msmG1 icPoints publicInputs 0 msmHint.elems = some sum
          ∧ vkX = g.ecSafeAdd sum ic0 0 := by
  have hstart : publicInputPoint g publicInputs msmHint = (do
      let serialized ← expect
        (g.libraryCallMsmG1 (msmCalldata icPoints publicInputs msmHint)) .libraryCall
      let (sum, _) ← expect (Serde.deserialize serialized) .unwrapNone
      return g.ecSafeAdd sum ic0 0) := rfl
  rw [hstart, libraryCallMsmG1_msmCalldata]
  cases g.msmG1 icPoints publicInputs 0 msmHint.elems with
  | none => exact iff_of_false nofun nofun
  | some sum =>
      have hread := Serde.deserialize_serialize sum []
      rw [List.append_nil] at hread
      simp only [Option.map_some, expect_some, ok_bind, hread, pure_eq_ok, Except.ok.injEq,
        Option.some.injEq, exists_eq_left', eq_comm (b := vkX)]

/-- **What stands behind an accepted proof**: everything the verifier asked
of it. -/
structure Verified (g : Garaga H Q) (storage : WorldID.Storage) (blockTimestamp : U64)
    (fullProofWithHints : List Felt252) (xs : Span U256) (fph : FullProofWithHints H Q)
    (root : U256) (sum : G1Point) : Prop where
  deserialized : g.deserializeFullProofWithHints fullProofWithHints = some fph
  inputs : xs = fph.groth16Proof.publicInputs
  first : xs.elems[0]? = some root
  valid : WorldID.requireValidRoot storage root blockTimestamp = .ok ()
  aOnCurve : g.g1OnCurve fph.groth16Proof.a 0 = true
  bOnCurve : g.g2OnCurve fph.groth16Proof.b 0 = true
  cOnCurve : g.g1OnCurve fph.groth16Proof.c 0 = true
  product : g.msmG1 icPoints xs 0 fph.msmHint.elems = some sum
  pairing : g.multiPairingCheck ⟨g.ecSafeAdd sum ic0 0, vk.gammaG2⟩
    ⟨fph.groth16Proof.c, vk.deltaG2⟩ ⟨g.negate fph.groth16Proof.a 0, fph.groth16Proof.b⟩
    vk.alphaBetaMillerLoopResult fph.mpcheckHint fph.smallQ = true

section Product

variable {g : Garaga H Q} {G : Type} [AddCommGroup G] {point : G1Point → G}
  {ofPoint : G → G1Point}

/-- The library answers a product only if there are four scalars. -/
theorem Garaga.Computes.length_eq (hg : g.Computes point ofPoint) {xs : Span U256}
    {hint : List Felt252} {sum : G1Point} (h : g.msmG1 icPoints xs 0 hint = some sum) :
    xs.elems.length = icPoints.elems.length := by
  by_contra hne
  rw [hg.msmG1_length icPoints xs hint hne] at h
  cases h

theorem Garaga.Computes.product_eq (hg : g.Computes point ofPoint) {xs : Span U256}
    {hint : List Felt252} {sum : G1Point} (h : g.msmG1 icPoints xs 0 hint = some sum) :
    sum = ofPoint (combine point xs.elems icPoints.elems) :=
  hg.msmG1_sum icPoints xs hint sum
    (fun p hp => ic_onCurve p (List.mem_cons_of_mem ic0 hp)) h

end Product

/-- The verifier returns the public inputs exactly when every check passes. -/
theorem verify_eq_some {g : Garaga H Q} {self : WorldID.Storage} {blockTimestamp : U64}
    {fullProofWithHints : List Felt252} {xs : Span U256} :
    WorldID.verifyGroth16ProofBn254 g self blockTimestamp fullProofWithHints = .ok (some xs)
      ↔ ∃ fph root sum, Verified g self blockTimestamp fullProofWithHints xs fph root sum := by
  simp only [WorldID.verifyGroth16ProofBn254, bind_eq_ok, expect_eq_ok, mapError_eq_ok,
    publicInputPoint_eq_ok]
  constructor
  · rintro ⟨fph, hdes, root, hroot, ⟨⟩, hvalid, ⟨⟩, ha, ⟨⟩, hb, ⟨⟩, hc, vkX,
      ⟨sum, hsum, rfl⟩, hret⟩
    split at hret
    · rename_i hcheck
      obtain rfl := Option.some.inj (Except.ok.inj hret)
      exact ⟨fph, root, sum, hdes, rfl, hroot, hvalid, assert_eq_ok.mp ha,
        assert_eq_ok.mp hb, assert_eq_ok.mp hc, hsum, hcheck⟩
    · cases hret
  · rintro ⟨fph, root, sum, h⟩
    obtain ⟨hdes, rfl, hroot, hvalid, ha, hb, hc, hsum, hcheck⟩ := h
    refine ⟨fph, hdes, root, hroot, (), hvalid, (), assert_eq_ok.mpr ha, (),
      assert_eq_ok.mpr hb, (), assert_eq_ok.mpr hc, _, ⟨sum, hsum, rfl⟩, ?_⟩
    rw [if_pos hcheck]
    rfl

/-- **A verified proof is bound to its inputs**: if the verifier returns
`xs`, they are the inputs of the calldata, four of them, the first a root
valid in that state at that time; `a`, `b` and `c` are on the curve; the
calldata of the multi-scalar product reads as the points `ic[1]` to `ic[4]`,
the scalars `xs`, the curve identifier 0 and the proof's hint; and the
pairing check was true for `ic[0]` plus the sum of `xs[i] * ic[i + 1]`. In
every other case it panics or returns `None`. -/
theorem verify_bound (g : Garaga H Q) {G : Type} [AddCommGroup G] (point : G1Point → G)
    (ofPoint : G → G1Point) (hg : g.Computes point ofPoint) (self : WorldID.Storage)
    (blockTimestamp : U64) (fullProofWithHints : List Felt252) :
    let outcome := WorldID.verifyGroth16ProofBn254 g self blockTimestamp fullProofWithHints
    (∀ xs, outcome = .ok (some xs) → ∃ fph vkX,
      g.deserializeFullProofWithHints fullProofWithHints = some fph
      ∧ xs = fph.groth16Proof.publicInputs
      ∧ xs.elems.length = 4
      ∧ (∃ root, xs.elems[0]? = some root
          ∧ WorldID.requireValidRoot self root blockTimestamp = .ok ())
      ∧ (g.g1OnCurve fph.groth16Proof.a 0 = true ∧ g.g2OnCurve fph.groth16Proof.b 0 = true
          ∧ g.g1OnCurve fph.groth16Proof.c 0 = true)
      ∧ MsmCall.decode (msmCalldata icPoints xs fph.msmHint)
          = some ⟨icPoints, xs, 0, fph.msmHint.elems⟩
      ∧ point vkX = point ic0 + combine point xs.elems icPoints.elems
      ∧ g.multiPairingCheck ⟨vkX, vk.gammaG2⟩ ⟨fph.groth16Proof.c, vk.deltaG2⟩
          ⟨g.negate fph.groth16Proof.a 0, fph.groth16Proof.b⟩ vk.alphaBetaMillerLoopResult
          fph.mpcheckHint fph.smallQ = true)
    ∧ ((∃ xs, outcome = .ok (some xs)) ∨ outcome = .ok none ∨ ∃ e, outcome = .error e) := by
  intro outcome
  constructor
  · intro xs hxs
    obtain ⟨fph, root, sum, h⟩ := verify_eq_some.mp hxs
    refine ⟨fph, g.ecSafeAdd sum ic0 0, h.deserialized, h.inputs, hg.length_eq h.product,
      ⟨root, h.first, h.valid⟩, ⟨h.aOnCurve, h.bOnCurve, h.cOnCurve⟩,
      decode_msmCalldata icPoints xs fph.msmHint, ?_,
      h.pairing⟩
    have hic0 : ic0.OnCurve := ic_onCurve ic0 (by decide)
    rw [hg.product_eq h.product, hg.ecSafeAdd _ ic0 hic0, hg.point_ofPoint, add_comm]
  · cases hout : outcome with
    | error e => exact .inr (.inr ⟨e, rfl⟩)
    | ok r =>
        cases r with
        | none => exact .inr (.inl rfl)
        | some xs => exact .inl ⟨xs, rfl⟩

/-! ## A library that computes -/

instance : NeZero bn254Order := ⟨by decide⟩

/-- A group element in coordinates: its discrete logarithm. -/
def ofLog (x : ZMod bn254Order) : G1Point := ⟨U384.ofNat x.val, U384.ofNat 0⟩

def log (p : G1Point) : ZMod bn254Order := p.x.toNat

theorem log_ofLog (x : ZMod bn254Order) : log (ofLog x) = x := by
  have hlt : x.val < 2 ^ 256 := Nat.lt_trans x.val_lt (by decide)
  show ((U384.ofNat x.val).toNat : ZMod bn254Order) = x
  rw [U384.toNat_ofNat hlt]
  exact ZMod.natCast_zmod_val x

/-- A proof as calldata: its points, its inputs, and the hint to the end. -/
def writeProof (fph : FullProofWithHints Unit Unit) : List Felt252 :=
  Serde.serialize fph.groth16Proof.a ++ (Serde.serialize fph.groth16Proof.b
    ++ (Serde.serialize fph.groth16Proof.c ++ (Serde.serialize fph.groth16Proof.publicInputs
      ++ fph.msmHint.elems)))

def readProof (calldata : List Felt252) : Option (FullProofWithHints Unit Unit) := do
  let (a, calldata) ← Serde.deserialize calldata
  let (b, calldata) ← Serde.deserialize calldata
  let (c, calldata) ← Serde.deserialize calldata
  let (publicInputs, hint) ← Serde.deserialize calldata
  if h : hint.length < 2 ^ 32 then return ⟨⟨a, b, c, publicInputs⟩, (), (), ⟨hint, h⟩⟩
  else none

theorem readProof_writeProof (fph : FullProofWithHints Unit Unit) :
    readProof (writeProof fph) = some fph := by
  simp only [readProof, writeProof, Serde.deserialize_serialize, Option.bind_eq_bind,
    Option.bind_some, dif_pos fph.msmHint.size]
  rfl

/-- Garaga over discrete logarithms, with one generator on the other side of
the pairing. -/
def logGaraga : Garaga Unit Unit where
  deserializeFullProofWithHints := readProof
  g1OnCurve _ _ := true
  g2OnCurve _ _ := true
  msmG1 points scalars _ _ :=
    if scalars.elems.length = points.elems.length then
      some (ofLog (combine log scalars.elems points.elems))
    else none
  ecSafeAdd p q _ := ofLog (log p + log q)
  negate p _ := ofLog (-log p)
  multiPairingCheck s t u _ _ _ := log s.p + log t.p + log u.p = 0

theorem logGaraga_computes : logGaraga.Computes log ofLog where
  point_ofPoint := log_ofLog
  msmG1_length points scalars hint h := if_neg h
  msmG1_sum points scalars hint p _ h := by
    by_cases hlen : scalars.elems.length = points.elems.length
    · exact (Option.some.inj ((if_pos hlen).symm.trans h)).symm
    · exact absurd ((if_neg hlen).symm.trans h) nofun
  ecSafeAdd x p _ := by
    show ofLog (log (ofLog x) + log p) = ofLog (x + log p)
    rw [log_ofLog]

/-- A history whose latest root is `6`. -/
def sampleHistory : WorldID.Storage := ⟨20, WorldID.oneWeek, 6, fun _ => 0⟩

/-- The inputs of a proof for the root `6` with a nullifier. -/
def sampleInputs (nullifier : U256) : Span U256 := ⟨[6, nullifier, 0, 0], (by decide : 4 < 2 ^ 32)⟩

/-- The proof that verifies for the nullifier `5`, with other inputs
perhaps. -/
def sampleProof (publicInputs : Span U256) : FullProofWithHints Unit Unit :=
  ⟨⟨ofLog 0, ⟨U384.ofNat 0, U384.ofNat 0, U384.ofNat 0, U384.ofNat 0⟩,
    ofLog (-(log ic0 + combine log (sampleInputs 5).elems icPoints.elems)), publicInputs⟩,
    (), (), ⟨[], by decide⟩⟩

/-- It verifies for any inputs that combine to the same point. -/
theorem verify_sampleProof {nullifier : U256}
    (h : combine log (sampleInputs nullifier).elems icPoints.elems
      = combine log (sampleInputs 5).elems icPoints.elems) :
    WorldID.verifyGroth16ProofBn254 logGaraga sampleHistory 1
        (writeProof (sampleProof (sampleInputs nullifier)))
      = .ok (some (sampleInputs nullifier)) := by
  refine verify_eq_some.mpr ⟨sampleProof (sampleInputs nullifier), 6,
    ofLog (combine log (sampleInputs nullifier).elems icPoints.elems), ?_⟩
  refine ⟨readProof_writeProof _, rfl, rfl, rfl, rfl, rfl, rfl, rfl, ?_⟩
  apply decide_eq_true
  show log (ofLog (log (ofLog _) + log ic0)) + log (ofLog (-_)) + log (ofLog (-(log (ofLog 0))))
    = 0
  rw [log_ofLog, log_ofLog, log_ofLog, log_ofLog, log_ofLog, h,
    add_comm _ (log ic0), neg_zero, add_zero, add_neg_cancel]

theorem verify_bound_sample :
    ∃ vkX, log vkX = log ic0 + combine log (sampleInputs 5).elems icPoints.elems := by
  obtain ⟨_, vkX, -, -, -, -, -, -, hvkX, -⟩ :=
    (verify_bound logGaraga log ofLog logGaraga_computes sampleHistory 1
      (writeProof (sampleProof (sampleInputs 5)))).1 (sampleInputs 5) (verify_sampleProof rfl)
  exact ⟨vkX, hvkX⟩

end Groth16

end WorldIDBridge.L2
