import WorldIDBridge.Lib.Checked
import WorldIDBridge.Types

/-!
# Cairo: panics, checked subtraction and Serde

The part of the Cairo language the StarkWorldID contract rests on. A call
either returns or panics; a panic reverts the call, so a step of the chain
keeps the old storage when a handler answers `.error`.
-/

namespace WorldIDBridge.L2

open Checked

/-- What a call into the contract can panic with: the `Errors` of its two
components, and the panics of the compiler-generated code around them. -/
inductive Panic where
  | notOwner
  | zeroAddressCaller
  | zeroAddressOwner
  | unsupportedTreeDepth
  | expiredRoot
  | nonExistentRoot
  | cannotOverwriteRoot
  | noRootsSeen
  | u256SubOverflow
  | failedToDeserializeParam (i : Nat)
  | inputTooLongForArguments
  | entryPointNotFound
  deriving DecidableEq, Repr

/-- The short string a panic carries. -/
def Panic.message : Panic → String
  | .notOwner => "Caller is not the owner"
  | .zeroAddressCaller => "Caller is the zero address"
  | .zeroAddressOwner => "New owner is the zero address"
  | .unsupportedTreeDepth => "UNSUPPORTED_TREE_DEPTH"
  | .expiredRoot => "EXPIRED_ROOT"
  | .nonExistentRoot => "NON_EXISTENT_ROOT"
  | .cannotOverwriteRoot => "CANNOT_OVERWRITE_ROOT"
  | .noRootsSeen => "NO_ROOTS_SEEN"
  | .u256SubOverflow => "u256_sub Overflow"
  | .failedToDeserializeParam i => "Failed to deserialize param #" ++ toString i
  | .inputTooLongForArguments => "Input too long for arguments"
  | .entryPointNotFound => "ENTRYPOINT_NOT_FOUND"

/-- `u256` subtraction: panics below zero. -/
def u256Sub (a b : U256) : Except Panic U256 :=
  if b ≤ a then .ok (a - b) else .error .u256SubOverflow

/-! ## Serde -/

/-- Cairo's `Serde`: a value as a sequence of felts, read back from the
front of a span. The law is part of the class. -/
class Serde (α : Type) where
  serialize : α → List Felt252
  deserialize : List Felt252 → Option (α × List Felt252)
  deserialize_serialize : ∀ a rest, deserialize (serialize a ++ rest) = some (a, rest)

/-- `felt252.try_into::<u128>()`. -/
def feltToU128? (x : Felt252) : Option U128 :=
  if x.val < 2 ^ 128 then some (BitVec.ofNat 128 x.val) else none

/-- `u128.into::<felt252>()`. -/
def u128ToFelt (v : U128) : Felt252 := ⟨v.toNat, lt_feltPrime_of_lt v.isLt⟩

@[simp] theorem feltToU128?_u128ToFelt (v : U128) :
    feltToU128? (u128ToFelt v) = some v := by
  simp [feltToU128?, u128ToFelt, v.isLt]

/-- `felt252.try_into::<EthAddress>()`. -/
def feltToEthAddress? (x : Felt252) : Option EthAddress :=
  if x.val < 2 ^ 160 then some (BitVec.ofNat 160 x.val) else none

@[simp] theorem feltToEthAddress?_toFelt (a : EthAddress) :
    feltToEthAddress? a.toFelt = some a := by
  simp [feltToEthAddress?, EthAddress.toFelt, a.isLt]

instance : Serde Felt252 where
  serialize x := [x]
  deserialize
    | [] => none
    | x :: rest => some (x, rest)
  deserialize_serialize _ _ := rfl

instance : Serde EthAddress where
  serialize a := [a.toFelt]
  deserialize
    | [] => none
    | x :: rest => (feltToEthAddress? x).map (·, rest)
  deserialize_serialize a rest := by simp

/-- A `u256` is two words, the low limb first, each below `2^128`. -/
instance : Serde U256 where
  serialize v := [u128ToFelt v.low, u128ToFelt v.high]
  deserialize
    | low :: high :: rest => do
        let low ← feltToU128? low
        let high ← feltToU128? high
        return (U256.ofLimbs low high, rest)
    | _ => none
  deserialize_serialize v rest := by simp

/-- The argument part of a generated handler wrapper with one argument
after `from_address`: the argument is read from the payload and nothing may
be left over. `from_address` is parameter 1 and always reads. -/
def decodeArgument (α : Type) [Serde α] (payload : List Felt252) : Except Panic α :=
  match Serde.deserialize payload with
  | none => .error (.failedToDeserializeParam 2)
  | some (a, rest) => do
      assert (rest = []) .inputTooLongForArguments
      return a

theorem decodeArgument_serialize {α : Type} [Serde α] (a : α) :
    decodeArgument α (Serde.serialize a) = .ok a := by
  have h := Serde.deserialize_serialize a []
  rw [List.append_nil] at h
  simp [decodeArgument, h, assert]

end WorldIDBridge.L2
