import WorldIDBridge.L2.Span

/-!
# Garaga's data types

The types of the Garaga library that the verifier handles, limb by limb as
the library defines them, and the Serde forms of those it passes on.
-/

namespace WorldIDBridge.L2.Groth16

structure U288 where
  limb0 : U96
  limb1 : U96
  limb2 : U96
  deriving DecidableEq, Repr

structure U384 where
  limb0 : U96
  limb1 : U96
  limb2 : U96
  limb3 : U96
  deriving DecidableEq, Repr

structure G1Point where
  x : U384
  y : U384
  deriving DecidableEq, Repr

structure G2Point where
  x0 : U384
  x1 : U384
  y0 : U384
  y1 : U384
  deriving DecidableEq, Repr

structure G1G2Pair where
  p : G1Point
  q : G2Point
  deriving DecidableEq, Repr

/-- An element of the degree-12 extension. -/
structure E12D where
  w0 : U288
  w1 : U288
  w2 : U288
  w3 : U288
  w4 : U288
  w5 : U288
  w6 : U288
  w7 : U288
  w8 : U288
  w9 : U288
  w10 : U288
  w11 : U288
  deriving DecidableEq, Repr

structure Groth16VerifyingKey where
  alphaBetaMillerLoopResult : E12D
  gammaG2 : G2Point
  deltaG2 : G2Point
  deriving DecidableEq, Repr

structure Groth16Proof where
  a : G1Point
  b : G2Point
  c : G1Point
  publicInputs : Span U256

/-- A proof with what the library needs to check it cheaply: the hint of the
pairing check, in two parts, and the hint of the multi-scalar product. -/
structure FullProofWithHints (H Q : Type) where
  groth16Proof : Groth16Proof
  mpcheckHint : H
  smallQ : Q
  msmHint : Span Felt252

/-! ## Serde -/

instance : Serde U384 where
  serialize v := Serde.serialize v.limb0 ++ (Serde.serialize v.limb1
    ++ (Serde.serialize v.limb2 ++ Serde.serialize v.limb3))
  deserialize serialized := do
    let (limb0, serialized) ← Serde.deserialize serialized
    let (limb1, serialized) ← Serde.deserialize serialized
    let (limb2, serialized) ← Serde.deserialize serialized
    let (limb3, serialized) ← Serde.deserialize serialized
    return (⟨limb0, limb1, limb2, limb3⟩, serialized)
  deserialize_serialize v rest := by
    simp only [List.append_assoc, Serde.deserialize_serialize, Option.bind_eq_bind,
      Option.bind_some]
    rfl

instance : Serde G1Point where
  serialize p := Serde.serialize p.x ++ Serde.serialize p.y
  deserialize serialized := do
    let (x, serialized) ← Serde.deserialize serialized
    let (y, serialized) ← Serde.deserialize serialized
    return (⟨x, y⟩, serialized)
  deserialize_serialize p rest := by
    simp only [List.append_assoc, Serde.deserialize_serialize, Option.bind_eq_bind,
      Option.bind_some]
    rfl

instance : Serde G2Point where
  serialize p := Serde.serialize p.x0 ++ (Serde.serialize p.x1
    ++ (Serde.serialize p.y0 ++ Serde.serialize p.y1))
  deserialize serialized := do
    let (x0, serialized) ← Serde.deserialize serialized
    let (x1, serialized) ← Serde.deserialize serialized
    let (y0, serialized) ← Serde.deserialize serialized
    let (y1, serialized) ← Serde.deserialize serialized
    return (⟨x0, x1, y0, y1⟩, serialized)
  deserialize_serialize p rest := by
    simp only [List.append_assoc, Serde.deserialize_serialize, Option.bind_eq_bind,
      Option.bind_some]
    rfl

/-! ## The curve -/

/-- The prime of BN254's base field. -/
def bn254Prime : Nat :=
  21888242871839275222246405745257275088696311157297823662689037894645226208583

/-- The order of BN254's group. -/
def bn254Order : Nat :=
  21888242871839275222246405745257275088548364400416034343698204186575808495617

def U384.toNat (v : U384) : Nat :=
  v.limb0.toNat + 2 ^ 96 * (v.limb1.toNat + 2 ^ 96 * (v.limb2.toNat + 2 ^ 96 * v.limb3.toNat))

/-- A number below `2^384`, in limbs. -/
def U384.ofNat (n : Nat) : U384 :=
  ⟨BitVec.ofNat 96 n, BitVec.ofNat 96 (n / 2 ^ 96), BitVec.ofNat 96 (n / 2 ^ 96 / 2 ^ 96),
    BitVec.ofNat 96 (n / 2 ^ 96 / 2 ^ 96 / 2 ^ 96)⟩

theorem U384.toNat_ofNat {n : Nat} (h : n < 2 ^ 256) : (U384.ofNat n).toNat = n := by
  simp only [U384.ofNat, U384.toNat, BitVec.toNat_ofNat]
  omega

/-- The point satisfies the curve equation, with reduced coordinates. -/
def G1Point.OnCurve (p : G1Point) : Prop :=
  p.x.toNat < bn254Prime ∧ p.y.toNat < bn254Prime
    ∧ p.y.toNat ^ 2 % bn254Prime = (p.x.toNat ^ 3 + 3) % bn254Prime

instance (p : G1Point) : Decidable p.OnCurve := inferInstanceAs (Decidable (_ ∧ _ ∧ _))

end WorldIDBridge.L2.Groth16
