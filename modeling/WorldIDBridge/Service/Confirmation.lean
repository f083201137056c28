import WorldIDBridge.Service.PropagateRoot

/-!
# What a success confirms

A call of `propagate_root_with_retry` may broadcast under several nonces before
it returns. Each attempt keeps to the nonce it was answered, and so a success
comes with a receipt for a transaction under the last one.
-/

namespace WorldIDBridge.Service

open Prog

/-- The last nonce a call was answered, and the transaction of its last
receipt. -/
structure Known where
  nonce : Option U256
  confirmed : Option Eip1559Transaction

/-- The monitor of what a call knows: it sends under the last nonce it was
answered, and waits for what it sent under it. -/
def known (wallet : EthAddress) : Monitor Request Response Known where
  allows
    | _, .getTransactionCount fromAddress => fromAddress = wallet
    | s, .sendRawTransaction tx => s.nonce = some tx.nonce
    | s, .awaitReceipt tx _ => s.nonce = some tx.nonce
    | _, _ => True
  next
    | s, .getTransactionCount _, .ok nonce => { s with nonce := some nonce }
    | s, .awaitReceipt tx _, .ok (some _) => { s with confirmed := some tx }
    | s, _, _ => s

/-- A success is a receipt for a transaction under the last nonce. -/
def Confirms {ε α : Type} (r : Except ε α) (s : Known) : Prop :=
  ∀ a, r = .ok a → ∃ tx, s.confirmed = some tx ∧ s.nonce = some tx.nonce

theorem confirms_error {ε α : Type} (e : ε) (s : Known) : Confirms (.error e : Except ε α) s := by
  intro a h
  cases h

theorem fillAndSimulate_known (calldata : List U8) (toAddress wallet : EthAddress) (chainId : U64)
    (value : U256) (s : Known) :
    (fillAndSimulateEip1559Transaction calldata toAddress wallet chainId value).run.wp
      (known wallet) (fun r s' => ∀ tx, r = .ok tx → s'.nonce = some tx.nonce) s := by
  simp only [fillAndSimulateEip1559Transaction, wp_mapErr_bind, wp_lift_bind]
  refine ⟨trivial, fun fees => ?_⟩
  cases fees with
  | error e =>
      intro tx h
      cases h
  | ok fees =>
      refine ⟨rfl, fun nonce => ?_⟩
      cases nonce with
      | error e => trivial
      | ok nonce =>
          refine ⟨trivial, fun filled => ?_⟩
          cases filled with
          | error e =>
              intro tx h
              cases h
          | ok filled =>
              simp only [wp_ret, wp_unwrap]
              intro gas _ product _
              refine ⟨trivial, fun simulated => ?_⟩
              cases simulated with
              | error e =>
                  intro tx h
                  cases h
              | ok _ =>
                  intro tx h
                  cases h
                  rfl

theorem signAndSendTransaction_known (wallet : EthAddress) (tx : Eip1559Transaction)
    (blockConfirmations : Nat) {s : Known} (h : s.nonce = some tx.nonce) :
    (signAndSendTransaction tx blockConfirmations).run.wp (known wallet) Confirms s := by
  simp only [signAndSendTransaction, wp_mapErr_bind, wp_lift_bind]
  refine ⟨trivial, fun signed => ?_⟩
  cases signed with
  | error e => exact confirms_error _ _
  | ok _ =>
      refine ⟨h, fun sent => ?_⟩
      cases sent with
      | error e =>
          simp only [wp_ret]
          split <;> exact confirms_error _ _
      | ok _ =>
          simp only [wp_ret, waitForTxReceipt, wp_mapErr_bind]
          refine ⟨h, fun awaited => ?_⟩
          cases awaited with
          | error e => exact confirms_error _ _
          | ok receipt =>
              cases receipt with
              | none => exact confirms_error _ _
              | some receipt => exact fun _ _ => ⟨tx, rfl, h⟩

theorem propagateRoot_known (config : Config) (value : U256) (s : Known) :
    (propagateRoot config value).run.wp (known config.walletAddress) Confirms s := by
  simp only [propagateRoot, wp_mapErr_bind, wp_lift_bind, wp_unwrap]
  refine wp_mono (fillAndSimulate_known _ _ _ _ _ s) fun filled s' hnonce => ?_
  cases filled with
  | error e => exact confirms_error _ _
  | ok tx =>
      intro gasLimit _
      split
      · simp only [wp_mapErr_bind]
        refine wp_mono (signAndSendTransaction_known _ tx _ (hnonce tx rfl)) fun sent s'' h => ?_
        cases sent with
        | error e => exact confirms_error _ _
        | ok receipt =>
            have hconfirms : Confirms (.ok () : Except StateBridgeError Unit) s'' :=
              fun _ _ => h receipt rfl
            simp only
            split
            · simp only [wp_lift_bind, wp_unwrap]
              exact fun _ _ => hconfirms
            · exact hconfirms
      · exact confirms_error _ _

/-- Every attempt reads its own nonce, sends under it and confirms it. -/
theorem retryLoop_known (config : Config) (value : U256) (delays : List Nat) (s : Known) :
    (retryLoop config value delays).wp (known config.walletAddress) Confirms s := by
  induction delays generalizing s with
  | nil => exact propagateRoot_known config value s
  | cons delay delays ih =>
      rw [retryLoop, wp_bind]
      refine wp_mono (propagateRoot_known config value s) fun result s' h => ?_
      cases result with
      | ok _ => exact h
      | error err =>
          simp only
          split
          · rw [wp_bind]
            exact ⟨trivial, fun _ => ih s'⟩
          · exact confirms_error _ _

end WorldIDBridge.Service
