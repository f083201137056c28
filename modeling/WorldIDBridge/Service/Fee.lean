import WorldIDBridge.L2.Cairo

/-!
# The fee a propagation pays

The value attached to `propagateRoot` pays for the message to L2. It is a
constant, or the estimate of the L2 node, capped.
-/

namespace WorldIDBridge.Service

/-- The fee modes of the command line. -/
inductive Fee where
  | estimate
  | default
  | noFee
  deriving DecidableEq, Repr

/-- `DEFAULT_FEE`. -/
def defaultFee : Felt252 := 1000000000

/-- `MAX_ESTIMATED_FEE_WEI`. -/
def maxEstimatedFeeWei : Felt252 := 10000000000000

/-- `NO_FEE`. -/
def noFee : Felt252 := 0

def capEstimatedFee (fee : Felt252) : Felt252 :=
  if fee > maxEstimatedFeeWei then maxEstimatedFeeWei else fee

def feeToU256 (fee : Felt252) : U256 := feltToU256 fee

/-- `U256::low_u128`. -/
def lowU128 (v : U256) : U128 := v.setWidth 128

/-- The payload of a root, low word first. The source's `as_u128` of the
shifted root panics above 128 bits, which are not left then. -/
def intoFelt (root : U256) : List Felt252 :=
  [L2.u128ToFelt (lowU128 root), L2.u128ToFelt (lowU128 (root >>> 128))]

end WorldIDBridge.Service
