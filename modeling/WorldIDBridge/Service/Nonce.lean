import WorldIDBridge.Lib.TransitionRun
import WorldIDBridge.Service.Success

/-!
# What one call can pay for

A call of `propagate_root_with_retry` beside the account it spends from. A
transaction handed to the node may be included at any later time, whatever
the node said of it; the account includes a transaction only under its next
nonce. Every attempt reads that nonce anew, so what a call can have included
depends on when it reads.
-/

namespace WorldIDBridge.Service

open Prog TransitionRun

/-! ## The nonce of a transaction -/

/-- The monitor of nonces: its state is the last one the node answered.
Only the wallet's is asked for, and a transaction is broadcast only under
the last answer. -/
def nonceUse (wallet : EthAddress) : Monitor Request Response (Option U256) where
  allows
    | _, .getTransactionCount fromAddress => fromAddress = wallet
    | last, .sendRawTransaction tx => last = some tx.nonce
    | _, _ => True
  next
    | _, .getTransactionCount _, .ok nonce => some nonce
    | last, _, _ => last

/-- The stricter monitor of nonces: it holds the nonce of the transaction an
attempt is working on, from the answer of the node until the transaction is
sent. -/
def nonceHeld (wallet : EthAddress) : Monitor Request Response (Option U256) where
  allows
    | _, .getTransactionCount fromAddress => fromAddress = wallet
    | held, .fillTransaction tx => held = some tx.nonce
    | held, .call tx => held = some tx.nonce
    | held, .signTransaction tx => held = some tx.nonce
    | held, .sendRawTransaction tx => held = some tx.nonce
    | _, _ => True
  next
    | _, .getTransactionCount _, .ok nonce => some nonce
    | held, .fillTransaction _, _ => held
    | held, .call _, _ => held
    | held, .signTransaction _, _ => held
    | _, _, _ => none

/-- A filled transaction carries the nonce just read. -/
theorem fillAndSimulate_held (calldata : List U8) (toAddress wallet : EthAddress)
    (chainId : U64) (value : U256) (held : Option U256) :
    (fillAndSimulateEip1559Transaction calldata toAddress wallet chainId value).run.wp
      (nonceHeld wallet) (fun r held' => ∀ tx, r = .ok tx → held' = some tx.nonce) held := by
  simp only [fillAndSimulateEip1559Transaction, wp_mapErr_bind, wp_lift_bind]
  refine ⟨trivial, fun fees => ?_⟩
  cases fees with
  | error e =>
      intro tx h
      cases h
  | ok fees =>
      refine ⟨rfl, fun nonce => ?_⟩
      cases nonce with
      | error e => trivial
      | ok nonce =>
          refine ⟨rfl, fun filled => ?_⟩
          cases filled with
          | error e =>
              intro tx h
              cases h
          | ok filled =>
              simp only [wp_ret, wp_unwrap]
              intro gas _ product _
              refine ⟨rfl, fun simulated => ?_⟩
              cases simulated with
              | error e =>
                  intro tx h
                  cases h
              | ok _ =>
                  intro tx h
                  cases h
                  rfl

/-- Sending takes a transaction under the nonce held. -/
theorem signAndSendTransaction_held (wallet : EthAddress) (tx : Eip1559Transaction)
    (blockConfirmations : Nat) :
    (signAndSendTransaction tx blockConfirmations).run.wp (nonceHeld wallet)
      (fun _ _ => True) (some tx.nonce) := by
  simp only [signAndSendTransaction, wp_mapErr_bind, wp_lift_bind]
  refine ⟨rfl, fun signed => ?_⟩
  cases signed with
  | error e => trivial
  | ok _ =>
      refine ⟨rfl, fun sent => ?_⟩
      cases sent with
      | error e =>
          simp only [wp_ret]
          split <;> trivial
      | ok _ =>
          simp only [wp_ret, waitForTxReceipt, wp_mapErr_bind]
          refine ⟨trivial, fun awaited => ?_⟩
          cases awaited with
          | error e => trivial
          | ok receipt => cases receipt <;> trivial

theorem propagateRoot_held (config : Config) (value : U256) (held : Option U256) :
    (propagateRoot config value).run.wp (nonceHeld config.walletAddress)
      (fun _ _ => True) held := by
  simp only [propagateRoot, wp_mapErr_bind, wp_lift_bind, wp_unwrap]
  refine wp_mono (fillAndSimulate_held _ _ _ _ _ held) fun filled held' htx => ?_
  cases filled with
  | error e => trivial
  | ok tx =>
      intro gasLimit _
      split
      · obtain rfl := htx tx rfl
        simp only [wp_mapErr_bind]
        refine wp_mono (signAndSendTransaction_held _ tx _) fun sent _ _ => ?_
        cases sent with
        | error e => trivial
        | ok receipt =>
            simp only
            split
            · simp only [wp_lift_bind, wp_unwrap]
              exact fun _ _ => trivial
            · trivial
      · trivial

/-- Every attempt of a call reads its own nonce and works under it. -/
theorem retryLoop_held (config : Config) (value : U256) (delays : List Nat)
    (held : Option U256) :
    (retryLoop config value delays).wp (nonceHeld config.walletAddress)
      (fun _ _ => True) held := by
  induction delays generalizing held with
  | nil => exact propagateRoot_held config value held
  | cons delay delays ih =>
      rw [retryLoop, wp_bind]
      refine wp_mono (propagateRoot_held config value held) fun result held' _ => ?_
      cases result with
      | error err =>
          simp only
          split
          · -- a fast fail: the next attempt reads its own nonce after the delay
            exact ⟨trivial, fun _ => ih none⟩
          · trivial
      | ok _ => trivial

/-- The nonce held, if any, is the last one answered. -/
theorem retryLoop_nonce (config : Config) (value : U256) (delays : List Nat)
    (last : Option U256) :
    (retryLoop config value delays).wp (nonceUse config.walletAddress)
      (fun _ _ => True) last := by
  refine wp_of_follows (fun held last => ∀ n, held = some n → last = some n) ?_ ?_
    (retryLoop_held config value delays none) nofun (fun _ _ _ _ _ => trivial)
  · intro held last q hrel hq
    cases q with
    | getTransactionCount fromAddress => exact hq
    | sendRawTransaction tx => exact hrel _ hq
    | _ => trivial
  · intro held last q a hrel hq
    cases q with
    | getTransactionCount fromAddress =>
        cases a with
        | error e => exact nofun
        | ok nonce => exact fun n hn => hn
    | fillTransaction tx => exact hrel
    | call tx => exact hrel
    | signTransaction tx => exact hrel
    | _ => exact nofun

/-! ## A call and its account -/

/-- A call in progress. `count` is the transaction count of the wallet in the
latest block; `included` are the call's transactions among those counted. -/
structure Call where
  prog : Task (Except StateBridgeError Unit)
  count : Nat
  broadcast : List Eip1559Transaction
  included : List Eip1559Transaction

inductive Event where
  /-- The call's pending request is answered. -/
  | reply (x : Exchange Request Response)
  /-- A block includes a transaction of the call. -/
  | mine (tx : Eip1559Transaction)
  /-- A block includes another transaction of the wallet. -/
  | mineOther

/-- The node answers with the latest count of the wallet. -/
def isLatest (wallet : EthAddress) (count : Nat) : Exchange Request Response → Bool
  | ⟨.getTransactionCount fromAddress, .ok nonce⟩ =>
      decide (fromAddress = wallet → nonce.toNat = count)
  | _ => true

/-- What an exchange hands to the node, also where the node reports an
error. -/
def sentIn : Exchange Request Response → List Eip1559Transaction
  | ⟨.sendRawTransaction tx, _⟩ => [tx]
  | _ => []

namespace Call

def step (wallet : EthAddress) (s : Call) : Event → Call
  | .reply x =>
      match s.prog.reply? x with
      | some prog =>
          if isLatest wallet s.count x then
            { s with prog, broadcast := sentIn x ++ s.broadcast }
          else s
      | none => s
  | .mine tx =>
      if tx ∈ s.broadcast ∧ tx.nonce.toNat = s.count then
        { s with count := s.count + 1, included := tx :: s.included }
      else s
  | .mineOther => { s with count := s.count + 1 }

/-- The start of a call. -/
def start (config : Config) (value : U256) (count : Nat) : Call :=
  ⟨propagateRootWithRetry config value, count, [], []⟩

/-! ## What the steps keep -/

variable {wallet : EthAddress} {s : Call}

/-- A nonce the call may use or has used: not above the next one of the
account, and below it as soon as a transaction of the call was included. -/
def Read (s : Call) (nonce : U256) : Prop := nonce.toNat + s.included.length ≤ s.count

/-- **The invariant**: the rest of the call keeps to the last nonce it read,
and every transaction it broadcast carries a nonce it read. -/
structure Once (wallet : EthAddress) (s : Call) : Prop where
  prog : ∃ last, s.prog.wp (nonceUse wallet) (fun _ _ => True) last ∧ ∀ n ∈ last, s.Read n
  broadcast : ∀ tx ∈ s.broadcast, s.Read tx.nonce
  included : s.included.length ≤ 1

/-- The condition on a run: a nonce is answered only while none of the call's
transactions was included. -/
def ReadsUnpaid (s : Call) : Event → Prop
  | .reply ⟨.getTransactionCount _, .ok _⟩ => s.included = []
  | _ => True

theorem once_start (config : Config) (value : U256) (count : Nat) :
    Once config.walletAddress (start config value count) where
  prog := ⟨none, retryLoop_nonce config value retryDelays none, nofun⟩
  broadcast := nofun
  included := Nat.zero_le 1

/-- The nonce the call goes on with after an answer: the old one, or the
account's next one. -/
theorem read_next {x : Exchange Request Response} {last : Option U256}
    (hq : (nonceUse wallet).allows last x.1) (hlatest : isLatest wallet s.count x = true)
    (hunpaid : s.ReadsUnpaid (.reply x)) (hlast : ∀ n ∈ last, s.Read n) :
    ∀ n ∈ (nonceUse wallet).next last x.1 x.2, s.Read n := by
  obtain ⟨q, a⟩ := x
  cases q with
  | getTransactionCount fromAddress =>
      cases a with
      | error e => exact hlast
      | ok nonce =>
          -- the count just answered is a fresh nonce, as nothing was included yet
          intro n hn
          obtain rfl := Option.some.inj hn
          have hcount : nonce.toNat = s.count := of_decide_eq_true hlatest hq
          have hnone : s.included = [] := hunpaid
          show nonce.toNat + s.included.length ≤ s.count
          rw [hnone, hcount]
          exact Nat.le_refl _
  | _ => exact hlast

/-- What an exchange hands to the node carries the last nonce. -/
theorem read_sentIn {x : Exchange Request Response} {last : Option U256}
    (hq : (nonceUse wallet).allows last x.1) (hlast : ∀ n ∈ last, s.Read n) :
    ∀ tx ∈ sentIn x, s.Read tx.nonce := by
  obtain ⟨q, a⟩ := x
  cases q with
  | sendRawTransaction sent =>
      intro tx htx
      obtain rfl := List.mem_singleton.mp htx
      exact hlast _ hq
  | _ => exact nofun

/-- An inclusion takes a transaction of the call under the next nonce: it is
the first one. -/
theorem included_of_read {tx : Eip1559Transaction} (hread : s.Read tx.nonce)
    (hnonce : tx.nonce.toNat = s.count) : s.included.length = 0 := by
  unfold Read at hread
  omega

/-- What one step does: nothing, an answer, an inclusion of a transaction of
the call, or one of another. -/
theorem step_cases (wallet : EthAddress) (s : Call) (e : Event) :
    s.step wallet e = s
      ∨ (∃ x prog, e = .reply x ∧ s.prog.reply? x = some prog
          ∧ isLatest wallet s.count x = true
          ∧ s.step wallet e = { s with prog, broadcast := sentIn x ++ s.broadcast })
      ∨ (∃ tx ∈ s.broadcast, tx.nonce.toNat = s.count
          ∧ s.step wallet e = { s with count := s.count + 1, included := tx :: s.included })
      ∨ s.step wallet e = { s with count := s.count + 1 } := by
  cases e with
  | reply x =>
      simp only [step]
      split
      · rename_i prog hreply
        split
        · rename_i hlatest
          exact .inr (.inl ⟨x, prog, rfl, hreply, hlatest, rfl⟩)
        · exact .inl rfl
      · exact .inl rfl
  | mine tx =>
      simp only [step]
      split
      · rename_i hmine
        exact .inr (.inr (.inl ⟨tx, hmine.1, hmine.2, rfl⟩))
      · exact .inl rfl
  | mineOther => exact .inr (.inr (.inr rfl))

theorem Once.step (h : Once wallet s) {e : Event} (hunpaid : s.ReadsUnpaid e) :
    Once wallet (s.step wallet e) := by
  obtain ⟨last, hprog, hlast⟩ := h.prog
  rcases step_cases wallet s e with heq | ⟨x, prog, rfl, hreply, hlatest, heq⟩
      | ⟨tx, htx, hnonce, heq⟩ | heq <;> rw [heq]
  · exact h
  · obtain ⟨hq, hprog'⟩ := wp_of_reply? hprog hreply
    refine ⟨⟨_, hprog', read_next hq hlatest hunpaid hlast⟩, ?_, h.included⟩
    intro tx htx
    rcases List.mem_append.mp htx with hsent | hold
    · exact read_sentIn hq hlast tx hsent
    · exact h.broadcast tx hold
  · -- the account moves past every nonce the call read
    have hread : ∀ n, s.Read n → n.toNat + (s.included.length + 1) ≤ s.count + 1 :=
      fun n hn => Nat.succ_le_succ hn
    have hnone := included_of_read (h.broadcast tx htx) hnonce
    exact ⟨⟨last, hprog, fun n hn => hread n (hlast n hn)⟩,
      fun tx htx => hread _ (h.broadcast tx htx), Nat.succ_le_succ hnone.le⟩
  · have hread : ∀ n, s.Read n → n.toNat + s.included.length ≤ s.count + 1 :=
      fun n hn => Nat.le_succ_of_le hn
    exact ⟨⟨last, hprog, fun n hn => hread n (hlast n hn)⟩,
      fun tx htx => hread _ (h.broadcast tx htx), h.included⟩

end Call

/-! ## At most one inclusion -/

open Call in
/-- **At most one transaction of a call is included** in every run in which no
attempt reads the nonce after one was. -/
theorem propagateRootWithRetry_pays_once (config : Config) (value : U256) (count : Nat)
    (es : List Event)
    (hunpaid : Along (step config.walletAddress) ReadsUnpaid (start config value count) es) :
    (run (step config.walletAddress) (start config value count) es).included.length ≤ 1 := by
  have hrun : Once config.walletAddress
      (run (step config.walletAddress) (start config value count) es) :=
    run_invariant _ (fun _ _ h hP => h.step hP) (once_start config value count) hunpaid
  exact hrun.included

/-! ## A transaction included after an error -/

/-- An attempt under the given nonce, up to the answer to its send. -/
def sampleAttempt (nonce : U256) (answer : Except MiddlewareError Unit) : List Event :=
  [⟨.estimateEip1559Fees, .ok (2, 1)⟩, ⟨.getTransactionCount 9, .ok nonce⟩,
    ⟨.fillTransaction (sampleTx nonce none), .ok (some 60000)⟩,
    ⟨.call (sampleTx nonce (some 90000)), .ok ()⟩,
    ⟨.signTransaction (sampleTx nonce (some 90000)), .ok ()⟩,
    ⟨.sendRawTransaction (sampleTx nonce (some 90000)), answer⟩].map .reply

/-- The answer to a send is lost; the node has the transaction. -/
def lostAnswer : Except MiddlewareError Unit := .error ⟨"connection reset"⟩

/-- The first transaction is included while the call waits for its second
attempt, which reads the next nonce; both are included. -/
theorem second_attempt_pays_again :
    (run (Call.step 9) (Call.start sampleConfig 10 0)
        (sampleAttempt 0 lostAnswer ++ [.mine (sampleTx 0 (some 90000)), .reply ⟨.sleep 1, ()⟩]
          ++ sampleAttempt 1 (.ok ()) ++ [.mine (sampleTx 1 (some 90000))])).included
      = [sampleTx 1 (some 90000), sampleTx 0 (some 90000)] := rfl

/-- Included late, the first transaction leaves the second without a nonce. -/
theorem propagateRootWithRetry_pays_once_sample :
    (run (Call.step 9) (Call.start sampleConfig 10 0)
        (sampleAttempt 0 lostAnswer ++ [.reply ⟨.sleep 1, ()⟩] ++ sampleAttempt 0 (.ok ())
          ++ [.mine (sampleTx 0 (some 90000)), .mine (sampleTx 0 (some 90000))])).included.length
      ≤ 1 :=
  propagateRootWithRetry_pays_once sampleConfig 10 0 _ (by
    simp only [sampleAttempt, List.map, List.cons_append, List.nil_append]
    repeat' constructor)

end WorldIDBridge.Service
