import WorldIDBridge.L2.Verification
import Mathlib.GroupTheory.OrderOfElement

/-!
# Aliases of a nullifier

A public input is a 256-bit word and acts on a point of the curve modulo
the order of the group, so several words act alike. The verifier looks at
no input but the root. This module shows that any proof it accepts it also
accepts with another nullifier.
-/

namespace WorldIDBridge.L2

open Checked

namespace Groth16

/-! ## Words that act alike -/

/-- Another word with the same residue: the order up, or down where there is
no room above. -/
def aliasOf (x : U256) : U256 :=
  if x.toNat + bn254Order < 2 ^ 256 then BitVec.ofNat 256 (x.toNat + bn254Order)
  else BitVec.ofNat 256 (x.toNat - bn254Order)

theorem aliasOf_cases (x : U256) :
    (aliasOf x).toNat = x.toNat + bn254Order ∨ (aliasOf x).toNat + bn254Order = x.toNat := by
  have hx := x.isLt
  by_cases h : x.toNat + bn254Order < 2 ^ 256
  · left
    rw [aliasOf, if_pos h, BitVec.toNat_ofNat, Nat.mod_eq_of_lt h]
  · right
    have hroom : bn254Order ≤ x.toNat := by
      simp only [bn254Order] at h ⊢
      omega
    rw [aliasOf, if_neg h, BitVec.toNat_ofNat, Nat.mod_eq_of_lt (by omega)]
    omega

theorem aliasOf_modEq (x : U256) : (aliasOf x).toNat ≡ x.toNat [MOD bn254Order] := by
  rcases aliasOf_cases x with h | h
  · rw [h]
    exact Nat.add_modEq_right
  · rw [← h]
    exact Nat.add_modEq_right.symm

theorem aliasOf_ne (x : U256) : aliasOf x ≠ x := by
  intro heq
  have hpos : 0 < bn254Order := by decide
  rcases aliasOf_cases x with h | h
  · rw [heq] at h
    omega
  · rw [heq] at h
    omega

/-- Equal modulo the order, entry by entry. -/
def Congruent (xs ys : List U256) : Prop :=
  List.Forall₂ (fun x y => x.toNat ≡ y.toNat [MOD bn254Order]) xs ys

/-- Congruent inputs combine to the same point, in a group of that order. -/
theorem combine_congr {G : Type} [AddCommGroup G] (horder : ∀ a : G, bn254Order • a = 0)
    (point : G1Point → G) {xs ys : List U256} (h : Congruent xs ys) (points : List G1Point) :
    combine point xs points = combine point ys points := by
  induction h generalizing points with
  | nil => rfl
  | @cons x y xs ys hxy _ ih =>
      cases points with
      | nil => rfl
      | cons p points =>
          have hdvd := addOrderOf_dvd_of_nsmul_eq_zero (horder (point p))
          have hact : x.toNat • point p = y.toNat • point p :=
            nsmul_eq_nsmul_iff_modEq.mpr (hxy.of_dvd hdvd)
          have htail := ih points
          simp only [combine, List.zipWith_cons_cons, List.sum_cons] at htail ⊢
          rw [hact, htail]

/-! ## Accepted aliases -/

variable {H Q : Type}

/-- The library takes any words for public inputs: a proof can be written
with other inputs and another hint, and the multi-scalar product accepts
some hint for any scalars. -/
structure Garaga.TakesAnyScalars (g : Garaga H Q) : Prop where
  rewrite : ∀ calldata fph, g.deserializeFullProofWithHints calldata = some fph →
    ∀ publicInputs msmHint, ∃ calldata', g.deserializeFullProofWithHints calldata'
      = some { fph with
          groth16Proof := { fph.groth16Proof with publicInputs := publicInputs }
          msmHint := msmHint }
  msmG1 : ∀ (points : Span G1Point) (scalars : Span U256),
    scalars.elems.length = points.elems.length →
    ∃ msmHint : Span Felt252, (g.msmG1 points scalars 0 msmHint.elems).isSome

/-- Two calldatas with the same proof points. -/
def SameProofPoints (g : Garaga H Q) (calldata calldata' : List Felt252) : Prop :=
  ∃ fph fph', g.deserializeFullProofWithHints calldata = some fph
    ∧ g.deserializeFullProofWithHints calldata' = some fph'
    ∧ fph'.groth16Proof.a = fph.groth16Proof.a ∧ fph'.groth16Proof.b = fph.groth16Proof.b
    ∧ fph'.groth16Proof.c = fph.groth16Proof.c

/-- **An accepted proof is accepted with other congruent inputs** that keep
the root. -/
theorem verify_congruent {g : Garaga H Q} {G : Type} [AddCommGroup G] {point : G1Point → G}
    {ofPoint : G → G1Point} (hg : g.Computes point ofPoint) (hany : g.TakesAnyScalars)
    (horder : ∀ a : G, bn254Order • a = 0) {self : WorldID.Storage} {blockTimestamp : U64}
    {calldata : List Felt252} {xs ys : Span U256}
    (h : WorldID.verifyGroth16ProofBn254 g self blockTimestamp calldata = .ok (some xs))
    (hroot : ys.elems[0]? = xs.elems[0]?) (hcong : Congruent ys.elems xs.elems) :
    ∃ calldata', SameProofPoints g calldata calldata'
      ∧ WorldID.verifyGroth16ProofBn254 g self blockTimestamp calldata' = .ok (some ys) := by
  obtain ⟨fph, root, sum, hv⟩ := verify_eq_some.mp h
  have hlen : ys.elems.length = icPoints.elems.length :=
    hcong.length_eq.trans (hg.length_eq hv.product)
  obtain ⟨msmHint, hsome⟩ := hany.msmG1 icPoints ys hlen
  obtain ⟨sum', hsum'⟩ := Option.isSome_iff_exists.mp hsome
  -- the scalars act alike, so the product is the same point
  have hsame : sum' = sum := by
    rw [hg.product_eq hsum', hg.product_eq hv.product, combine_congr horder point hcong]
  obtain ⟨calldata', hdes⟩ := hany.rewrite calldata fph hv.deserialized ys msmHint
  refine ⟨calldata', ⟨fph, _, hv.deserialized, hdes, rfl, rfl, rfl⟩, ?_⟩
  have hv' : Verified g self blockTimestamp calldata' ys _ root sum' := {
    deserialized := hdes
    inputs := rfl
    first := hroot.trans hv.first
    valid := hv.valid
    aOnCurve := hv.aOnCurve
    bOnCurve := hv.bOnCurve
    cOnCurve := hv.cOnCurve
    product := hsum'
    pairing := hsame ▸ hv.pairing }
  exact verify_eq_some.mpr ⟨_, root, sum', hv'⟩

/-- The inputs with another nullifier. -/
def withAlias : List U256 → List U256
  | root :: nullifier :: rest => root :: aliasOf nullifier :: rest
  | xs => xs

theorem withAlias_congruent (xs : List U256) : Congruent (withAlias xs) xs := by
  have hrefl : ∀ xs : List U256, Congruent xs xs := fun xs =>
    List.forall₂_same.mpr fun x _ => Nat.ModEq.refl x.toNat
  match xs with
  | [] => exact hrefl []
  | [x] => exact hrefl [x]
  | root :: nullifier :: rest =>
      exact .cons (Nat.ModEq.refl _) (.cons (aliasOf_modEq nullifier) (hrefl rest))

theorem withAlias_root (xs : List U256) : (withAlias xs)[0]? = xs[0]? := by
  match xs with
  | [] => rfl
  | [x] => rfl
  | root :: nullifier :: rest => simp only [withAlias, List.getElem?_cons_zero]

theorem withAlias_nullifier {xs : List U256} (h : 2 ≤ xs.length) :
    (withAlias xs)[1]? ≠ xs[1]? := by
  match xs, h with
  | root :: nullifier :: rest, _ =>
      intro heq
      exact aliasOf_ne nullifier (Option.some.inj heq)

/-- **No accepted proof has one nullifier**: whatever calldata the verifier
accepts, in any state and at any time, it accepts another one with the same
proof points, the same inputs modulo the order of the group, and a different
nullifier. -/
theorem accepted_nullifier_has_alias {g : Garaga H Q} {G : Type} [AddCommGroup G]
    {point : G1Point → G} {ofPoint : G → G1Point} (hg : g.Computes point ofPoint)
    (hany : g.TakesAnyScalars) (horder : ∀ a : G, bn254Order • a = 0)
    (self : WorldID.Storage) (blockTimestamp : U64) (calldata : List Felt252) (xs : Span U256)
    (h : WorldID.verifyGroth16ProofBn254 g self blockTimestamp calldata = .ok (some xs)) :
    ∃ calldata' ys, SameProofPoints g calldata calldata'
      ∧ WorldID.verifyGroth16ProofBn254 g self blockTimestamp calldata' = .ok (some ys)
      ∧ Congruent ys.elems xs.elems ∧ ys.elems[1]? ≠ xs.elems[1]? := by
  have hcong := withAlias_congruent xs.elems
  have hsize : (withAlias xs.elems).length < 2 ^ 32 := by
    rw [hcong.length_eq]
    exact xs.size
  obtain ⟨ys, hys⟩ : ∃ ys : Span U256, ys.elems = withAlias xs.elems := ⟨⟨_, hsize⟩, rfl⟩
  -- four inputs, so there are a root and a nullifier
  have hlen : 2 ≤ xs.elems.length := by
    obtain ⟨fph, root, sum, hv⟩ := verify_eq_some.mp h
    rw [hg.length_eq hv.product]
    decide
  obtain ⟨calldata', hsame, haccepted⟩ := verify_congruent hg hany horder h
    (hys ▸ withAlias_root xs.elems) (hys ▸ hcong)
  refine ⟨calldata', ys, hsame, haccepted, hys ▸ hcong, ?_⟩
  rw [hys]
  exact withAlias_nullifier hlen

/-! ## The library over discrete logarithms -/

theorem logGaraga_takesAnyScalars : logGaraga.TakesAnyScalars where
  rewrite _ _ _ _ _ := ⟨writeProof _, readProof_writeProof _⟩
  msmG1 points scalars h := ⟨⟨[], by decide⟩, by
    show (if scalars.elems.length = points.elems.length then some _ else none).isSome
    rw [if_pos h]
    rfl⟩

theorem order_smul (x : ZMod bn254Order) : bn254Order • x = 0 := by
  rw [nsmul_eq_mul, ZMod.natCast_self, zero_mul]

theorem accepted_nullifier_has_alias_sample :
    ∃ calldata' ys,
      SameProofPoints logGaraga (writeProof (sampleProof (sampleInputs 5))) calldata'
      ∧ WorldID.verifyGroth16ProofBn254 logGaraga sampleHistory 1 calldata' = .ok (some ys)
      ∧ Congruent ys.elems (sampleInputs 5).elems
      ∧ ys.elems[1]? ≠ (sampleInputs 5).elems[1]? :=
  accepted_nullifier_has_alias logGaraga_computes logGaraga_takesAnyScalars order_smul
    sampleHistory 1 (writeProof (sampleProof (sampleInputs 5))) (sampleInputs 5)
    (verify_sampleProof rfl)

/-- One proof is accepted with the nullifier `5` and with the nullifier `5`
plus the order of the group. -/
theorem two_nullifiers_accepted :
    let nullifier : U256 := 5 + BitVec.ofNat 256 bn254Order
    SameProofPoints logGaraga (writeProof (sampleProof (sampleInputs 5)))
        (writeProof (sampleProof (sampleInputs nullifier)))
      ∧ WorldID.verifyGroth16ProofBn254 logGaraga sampleHistory 1
          (writeProof (sampleProof (sampleInputs 5))) = .ok (some (sampleInputs 5))
      ∧ WorldID.verifyGroth16ProofBn254 logGaraga sampleHistory 1
          (writeProof (sampleProof (sampleInputs nullifier)))
        = .ok (some (sampleInputs nullifier))
      ∧ Congruent (sampleInputs nullifier).elems (sampleInputs 5).elems
      ∧ sampleInputs nullifier ≠ sampleInputs 5 ∧ ¬ nullifier.toNat < bn254Order := by
  intro nullifier
  have hcong : Congruent (sampleInputs nullifier).elems (sampleInputs 5).elems :=
    .cons (Nat.ModEq.refl _) (.cons (by decide) (.cons (Nat.ModEq.refl _)
      (.cons (Nat.ModEq.refl _) .nil)))
  refine ⟨⟨_, _, readProof_writeProof _, readProof_writeProof _, rfl, rfl, rfl⟩,
    verify_sampleProof rfl, verify_sampleProof (combine_congr order_smul log hcong _), hcong,
    ?_, by decide⟩
  intro heq
  have hentry := congrArg (fun s : Span U256 => s.elems[1]?) heq
  exact absurd (Option.some.inj hentry) (by decide)

end Groth16

end WorldIDBridge.L2
