import WorldIDBridge.Service.Nonce

/-!
# Two tasks and one account

The executor and the poller both call `propagate_root_with_retry`, each
whenever it has something to propagate, with the same wallet and without a
lock. Here they run beside the account: any interleaving of their awaits,
any answers of the node, any inclusions. Between its nonce query and its
send a call works under a nonce nobody else knows of; the module says when
that is enough.
-/

namespace WorldIDBridge.Service

open Prog TransitionRun

/-- The tasks that submit transactions. -/
inductive Submitter where
  | executor
  | poller
  deriving DecidableEq, Repr

/-- The calls of the two tasks, if they made one, and the account. `count` is
the transaction count of the wallet in the latest block; `broadcast` are the
service's transactions handed to the node, `included` those among them that
were included. -/
structure Submitters where
  calls : Submitter → Option (Task (Except StateBridgeError Unit))
  count : Nat
  broadcast : List Eip1559Transaction
  included : List Eip1559Transaction

namespace Submitters

inductive Action where
  /-- A task calls `propagate_root_with_retry`. -/
  | call (t : Submitter) (value : U256)
  /-- The pending request of a task is answered. -/
  | reply (t : Submitter) (x : Exchange Request Response)
  /-- A block includes a transaction of the service. -/
  | mine (tx : Eip1559Transaction)
  /-- A block includes another transaction of the wallet. -/
  | mineOther

/-- A task that is not in a call: it made none, or the last one returned. A
panic ends the task. -/
def Idle (s : Submitters) (t : Submitter) : Bool :=
  match s.calls t with
  | none => true
  | some (.ret _) => true
  | some _ => false

def step (config : Config) (s : Submitters) : Action → Submitters
  | .call t value =>
      if s.Idle t then
        { s with calls := Function.update s.calls t (some (propagateRootWithRetry config value)) }
      else s
  | .reply t x =>
      match s.calls t with
      | some prog =>
          match prog.reply? x with
          | some prog' =>
              if isLatest config.walletAddress s.count x then
                { s with
                  calls := Function.update s.calls t (some prog')
                  broadcast := sentIn x ++ s.broadcast }
              else s
          | none => s
      | none => s
  | .mine tx =>
      if tx ∈ s.broadcast ∧ tx.nonce.toNat = s.count then
        { s with count := s.count + 1, included := tx :: s.included }
      else s
  | .mineOther => { s with count := s.count + 1 }

def start (count : Nat) : Submitters := ⟨fun _ => none, count, [], []⟩

/-! ## Exclusivity -/

/-- **Exclusivity**: of two distinct transactions broadcast under one nonce,
one was included. -/
def Exclusive (s : Submitters) : Prop :=
  ∀ tx ∈ s.broadcast, ∀ tx' ∈ s.broadcast, tx ≠ tx' → tx.nonce = tx'.nonce →
    tx ∈ s.included ∨ tx' ∈ s.included

/-- A transaction that was broadcast and not included yet carries the nonce. -/
def PendingUnder (s : Submitters) (nonce : U256) : Prop :=
  ∃ tx ∈ s.broadcast, tx ∉ s.included ∧ tx.nonce = nonce

/-- The nonce of the transaction in a request that prepares or sends one. -/
def nonceIn : Request → Option U256
  | .fillTransaction tx => some tx.nonce
  | .call tx => some tx.nonce
  | .signTransaction tx => some tx.nonce
  | .sendRawTransaction tx => some tx.nonce
  | _ => none

/-- The nonce a call is preparing a transaction under. -/
def preparedBy : Option (Task (Except StateBridgeError Unit)) → Option U256
  | some (.call q _) => nonceIn q
  | _ => none

/-- The nonce a task is preparing a transaction under: it was answered its
nonce query and has not sent the transaction. -/
def prepares (s : Submitters) (t : Submitter) : Option U256 := preparedBy (s.calls t)

/-- The condition on a run: a nonce is answered only if no transaction of the
service that is pending, or that the other task is preparing, carries it. -/
def ReadsAlone (s : Submitters) : Action → Prop
  | .reply t ⟨.getTransactionCount _, .ok nonce⟩ =>
      ¬ s.PendingUnder nonce ∧ ∀ t', t' ≠ t → s.prepares t' ≠ some nonce
  | _ => True

/-! ## The invariant -/

/-- A call in progress keeps to the nonce it holds. -/
def Held (wallet : EthAddress) (call : Option (Task (Except StateBridgeError Unit))) : Prop :=
  ∀ prog, call = some prog → ∃ held, prog.wp (nonceHeld wallet) (fun _ _ => True) held

/-- **The invariant**: a nonce that is being worked under is nobody else's. -/
structure Apart (wallet : EthAddress) (s : Submitters) : Prop where
  held : ∀ t, Held wallet (s.calls t)
  unused : ∀ t nonce, s.prepares t = some nonce → ¬ s.PendingUnder nonce
  own : ∀ t t' nonce, t' ≠ t → s.prepares t = some nonce → s.prepares t' ≠ some nonce
  exclusive : s.Exclusive

variable {wallet : EthAddress} {config : Config} {s : Submitters}

/-- A call prepares a transaction under the nonce it holds. -/
theorem held_of_prepared {prog : Task (Except StateBridgeError Unit)} {held : Option U256}
    {nonce : U256} (hwp : prog.wp (nonceHeld wallet) (fun _ _ => True) held)
    (hprep : preparedBy (some prog) = some nonce) : held = some nonce := by
  cases prog with
  | ret r => cases hprep
  | panic => cases hprep
  | call q k =>
      have hallowed := hwp.1
      cases q with
      | fillTransaction tx => exact hallowed.trans hprep
      | call tx => exact hallowed.trans hprep
      | signTransaction tx => exact hallowed.trans hprep
      | sendRawTransaction tx => exact hallowed.trans hprep
      | _ => cases hprep

/-- After an exchange a call prepares a transaction under the nonce it did
before, or under one it was just answered. -/
theorem preparedBy_reply {prog prog' : Task (Except StateBridgeError Unit)}
    {x : Exchange Request Response} {held : Option U256} {nonce : U256}
    (hwp : prog.wp (nonceHeld wallet) (fun _ _ => True) held) (h : prog.reply? x = some prog')
    (hprep : preparedBy (some prog') = some nonce) :
    preparedBy (some prog) = some nonce
      ∨ ∃ fromAddress, x = ⟨.getTransactionCount fromAddress, .ok nonce⟩ := by
  obtain ⟨hallowed, hwp'⟩ := wp_of_reply? hwp h
  have hnext := held_of_prepared hwp' hprep
  obtain ⟨k, rfl, rfl⟩ := reply?_eq_some h
  obtain ⟨q, a⟩ := x
  cases q with
  | getTransactionCount fromAddress =>
      cases a with
      | error e => cases hnext
      | ok count =>
          obtain rfl := Option.some.inj hnext
          exact .inr ⟨fromAddress, rfl⟩
  | fillTransaction tx => exact .inl (hallowed.symm.trans hnext)
  | call tx => exact .inl (hallowed.symm.trans hnext)
  | signTransaction tx => exact .inl (hallowed.symm.trans hnext)
  | _ => cases hnext

/-- What an exchange hands to the node was being prepared. -/
theorem prepared_of_sentIn {prog prog' : Task (Except StateBridgeError Unit)}
    {x : Exchange Request Response} (h : prog.reply? x = some prog') {tx : Eip1559Transaction}
    (htx : tx ∈ sentIn x) : preparedBy (some prog) = some tx.nonce := by
  obtain ⟨k, rfl, -⟩ := reply?_eq_some h
  obtain ⟨q, a⟩ := x
  cases q with
  | sendRawTransaction sent =>
      obtain rfl := List.mem_singleton.mp htx
      rfl
  | _ => cases htx

/-- An exchange hands over one transaction at most. -/
theorem sentIn_unique {x : Exchange Request Response} {tx tx' : Eip1559Transaction}
    (h : tx ∈ sentIn x) (h' : tx' ∈ sentIn x) : tx = tx' := by
  obtain ⟨q, a⟩ := x
  cases q with
  | sendRawTransaction sent =>
      rw [List.mem_singleton.mp h, List.mem_singleton.mp h']
  | _ => cases h

/-- A call that has sent its transaction prepares none. -/
theorem preparedBy_of_sentIn {prog prog' : Task (Except StateBridgeError Unit)}
    {x : Exchange Request Response} {held : Option U256}
    (hwp : prog.wp (nonceHeld wallet) (fun _ _ => True) held) (h : prog.reply? x = some prog')
    {tx : Eip1559Transaction} (htx : tx ∈ sentIn x) : preparedBy (some prog') = none := by
  obtain ⟨-, hwp'⟩ := wp_of_reply? hwp h
  obtain ⟨q, a⟩ := x
  cases q with
  | sendRawTransaction sent =>
      cases hprep : preparedBy (some prog') with
      | none => rfl
      | some nonce =>
          have hnext := held_of_prepared hwp' hprep
          cases hnext
  | _ => cases htx

/-- What one step does: nothing, the start of a call, an answer, or an
inclusion. -/
theorem step_cases (config : Config) (s : Submitters) (a : Action) :
    s.step config a = s
      ∨ (∃ t value, s.step config a = { s with
            calls := Function.update s.calls t (some (propagateRootWithRetry config value)) })
      ∨ (∃ t x prog prog', a = .reply t x ∧ s.calls t = some prog
          ∧ prog.reply? x = some prog'
          ∧ s.step config a = { s with
              calls := Function.update s.calls t (some prog')
              broadcast := sentIn x ++ s.broadcast })
      ∨ (∃ tx, s.step config a
          = { s with count := s.count + 1, included := tx :: s.included })
      ∨ s.step config a = { s with count := s.count + 1 } := by
  cases a with
  | call t value =>
      simp only [step]
      split
      · exact .inr (.inl ⟨t, value, rfl⟩)
      · exact .inl rfl
  | reply t x =>
      simp only [step]
      split
      · rename_i prog hcall
        split
        · rename_i prog' hreply
          split
          · exact .inr (.inr (.inl ⟨t, x, prog, prog', rfl, hcall, hreply, rfl⟩))
          · exact .inl rfl
        · exact .inl rfl
      · exact .inl rfl
  | mine tx =>
      simp only [step]
      split
      · exact .inr (.inr (.inr (.inl ⟨tx, rfl⟩)))
      · exact .inl rfl
  | mineOther => exact .inr (.inr (.inr (.inr rfl)))

/-- A new call prepares nothing yet. -/
theorem preparedBy_propagateRootWithRetry (config : Config) (value : U256) :
    preparedBy (some (propagateRootWithRetry config value)) = none := rfl

theorem apart_start (wallet : EthAddress) (count : Nat) : Apart wallet (start count) where
  held _ := nofun
  unused _ _ := nofun
  own _ _ _ _ := nofun
  exclusive := nofun

/-- Replacing the call of one task. -/
theorem held_update {calls : Submitter → Option (Task (Except StateBridgeError Unit))}
    (h : ∀ t, Held wallet (calls t)) (t : Submitter) {prog : Task (Except StateBridgeError Unit)}
    {held : Option U256} (hprog : prog.wp (nonceHeld wallet) (fun _ _ => True) held) :
    ∀ t', Held wallet (Function.update calls t (some prog) t') := by
  intro t'
  by_cases ht : t' = t
  · subst ht
    rw [Function.update_self]
    intro p hp
    obtain rfl := Option.some.inj hp
    exact ⟨held, hprog⟩
  · rw [Function.update_of_ne ht]
    exact h t'

/-- A new call. -/
theorem Apart.call (h : Apart config.walletAddress s) (t : Submitter) (value : U256) :
    Apart config.walletAddress { s with
      calls := Function.update s.calls t (some (propagateRootWithRetry config value)) } := by
  -- the new call prepares nothing, so whoever prepares something did before
  have hold : ∀ t' nonce, preparedBy (Function.update s.calls t
      (some (propagateRootWithRetry config value)) t') = some nonce →
      s.prepares t' = some nonce := by
    intro t' nonce hprep
    by_cases ht : t' = t
    · subst ht
      rw [Function.update_self, preparedBy_propagateRootWithRetry] at hprep
      cases hprep
    · rwa [Function.update_of_ne ht] at hprep
  refine ⟨?_, ?_, ?_, h.exclusive⟩
  · exact held_update h.held t (retryLoop_held config value retryDelays none)
  · exact fun t' nonce hprep => h.unused t' nonce (hold t' nonce hprep)
  · exact fun t₁ t₂ nonce hne h₁ h₂ =>
      h.own t₁ t₂ nonce hne (hold t₁ nonce h₁) (hold t₂ nonce h₂)

/-- What the other task does not know of: after an answer to `t`, a nonce `t`
prepares under is pending nowhere and prepared by no other task. -/
theorem Apart.alone_after_reply (h : Apart wallet s) {t : Submitter}
    {x : Exchange Request Response} {prog prog' : Task (Except StateBridgeError Unit)}
    (hcall : s.calls t = some prog) (hreply : prog.reply? x = some prog')
    (halone : s.ReadsAlone (.reply t x)) {nonce : U256}
    (hprep : preparedBy (some prog') = some nonce) :
    ¬ s.PendingUnder nonce ∧ ∀ t', t' ≠ t → s.prepares t' ≠ some nonce := by
  obtain ⟨held, hwp⟩ := h.held t prog hcall
  rcases preparedBy_reply hwp hreply hprep with hbefore | ⟨fromAddress, rfl⟩
  · have ht : s.prepares t = some nonce := by rw [prepares, hcall, hbefore]
    exact ⟨h.unused t nonce ht, fun t' hne => h.own t t' nonce hne ht⟩
  · exact halone

/-- A transaction sent by the task that prepared it meets only included ones
under its nonce. -/
theorem Apart.exclusive_after_send (h : Apart wallet s) {t : Submitter}
    {sent : List Eip1559Transaction} (hsent : ∀ tx ∈ sent, s.prepares t = some tx.nonce)
    (hunique : ∀ tx ∈ sent, ∀ tx' ∈ sent, tx = tx') :
    ∀ tx ∈ sent ++ s.broadcast, ∀ tx' ∈ sent ++ s.broadcast, tx ≠ tx' → tx.nonce = tx'.nonce →
      tx ∈ s.included ∨ tx' ∈ s.included := by
  have hnew : ∀ tx ∈ sent, ∀ tx' ∈ s.broadcast, tx.nonce = tx'.nonce → tx' ∈ s.included := by
    intro tx htx tx' htx' hnonce
    by_contra hnot
    exact h.unused t tx.nonce (hsent tx htx) ⟨tx', htx', hnot, hnonce.symm⟩
  intro tx htx tx' htx' hne hnonce
  rcases List.mem_append.mp htx with hsent₁ | hold₁
  · rcases List.mem_append.mp htx' with hsent₂ | hold₂
    · exact absurd (hunique tx hsent₁ tx' hsent₂) hne
    · exact .inr (hnew tx hsent₁ tx' hold₂ hnonce)
  · rcases List.mem_append.mp htx' with hsent₂ | hold₂
    · exact .inl (hnew tx' hsent₂ tx hold₁ hnonce.symm)
    · exact h.exclusive tx hold₁ tx' hold₂ hne hnonce

/-- An answer to a task. -/
theorem Apart.reply (h : Apart wallet s) {t : Submitter} {x : Exchange Request Response}
    {prog prog' : Task (Except StateBridgeError Unit)} (hcall : s.calls t = some prog)
    (hreply : prog.reply? x = some prog') (halone : s.ReadsAlone (.reply t x)) :
    Apart wallet { s with
      calls := Function.update s.calls t (some prog')
      broadcast := sentIn x ++ s.broadcast } := by
  obtain ⟨held, hwp⟩ := h.held t prog hcall
  have hafter : ∀ nonce, preparedBy (some prog') = some nonce →
      ¬ s.PendingUnder nonce ∧ ∀ t', t' ≠ t → s.prepares t' ≠ some nonce :=
    fun nonce hprep => h.alone_after_reply hcall hreply halone hprep
  have hself : ∀ nonce, preparedBy (Function.update s.calls t (some prog') t) = some nonce →
      preparedBy (some prog') = some nonce := by
    intro nonce hprep
    rwa [Function.update_self] at hprep
  have hother : ∀ t' nonce, t' ≠ t →
      preparedBy (Function.update s.calls t (some prog') t') = some nonce →
      s.prepares t' = some nonce := by
    intro t' nonce ht hprep
    rwa [Function.update_of_ne ht] at hprep
  have hsent : ∀ tx ∈ sentIn x, s.prepares t = some tx.nonce := by
    intro tx htx
    rw [prepares, hcall, prepared_of_sentIn hreply htx]
  refine ⟨?_, ?_, ?_, ?_⟩
  · exact held_update h.held t (wp_of_reply? hwp hreply).2
  · intro t' nonce hprep ⟨tx, htx, hnot, hnonce⟩
    rcases List.mem_append.mp htx with hnew | hold
    · -- sent just now by `t`: it prepares nothing any more, and nobody else prepared that nonce
      by_cases ht : t' = t
      · subst ht
        have hnone := preparedBy_of_sentIn hwp hreply hnew
        rw [hself nonce hprep] at hnone
        cases hnone
      · exact h.own t t' nonce ht (hnonce ▸ hsent tx hnew) (hother t' nonce ht hprep)
    · have hpending : s.PendingUnder nonce := ⟨tx, hold, hnot, hnonce⟩
      by_cases ht : t' = t
      · subst ht
        exact (hafter nonce (hself nonce hprep)).1 hpending
      · exact h.unused t' nonce (hother t' nonce ht hprep) hpending
  · intro t₁ t₂ nonce hne h₁ h₂
    by_cases ht₁ : t₁ = t
    · subst ht₁
      exact (hafter nonce (hself nonce h₁)).2 t₂ hne (hother t₂ nonce hne h₂)
    · by_cases ht₂ : t₂ = t
      · subst ht₂
        exact (hafter nonce (hself nonce h₂)).2 t₁ ht₁ (hother t₁ nonce ht₁ h₁)
      · exact h.own t₁ t₂ nonce hne (hother t₁ nonce ht₁ h₁) (hother t₂ nonce ht₂ h₂)
  · exact h.exclusive_after_send hsent fun tx htx tx' htx' => sentIn_unique htx htx'

/-- An inclusion leaves fewer transactions pending. -/
theorem Apart.mine (h : Apart wallet s) (count : Nat) (tx : Eip1559Transaction) :
    Apart wallet { s with count := count, included := tx :: s.included } := by
  refine ⟨h.held, ?_, h.own, ?_⟩
  · intro t nonce hprep ⟨tx', htx', hnot, hnonce⟩
    exact h.unused t nonce hprep
      ⟨tx', htx', fun hin => hnot (List.mem_cons_of_mem tx hin), hnonce⟩
  · intro tx₁ h₁ tx₂ h₂ hne hnonce
    rcases h.exclusive tx₁ h₁ tx₂ h₂ hne hnonce with hin | hin
    · exact .inl (List.mem_cons_of_mem tx hin)
    · exact .inr (List.mem_cons_of_mem tx hin)

theorem Apart.step (h : Apart config.walletAddress s) {a : Action} (halone : s.ReadsAlone a) :
    Apart config.walletAddress (s.step config a) := by
  rcases step_cases config s a with heq | ⟨t, value, heq⟩
      | ⟨t, x, prog, prog', rfl, hcall, hreply, heq⟩ | ⟨tx, heq⟩ | heq <;> rw [heq]
  · exact h
  · exact h.call t value
  · exact h.reply hcall hreply halone
  · exact h.mine _ tx
  · exact ⟨h.held, h.unused, h.own, h.exclusive⟩

end Submitters

/-! ## Two transactions under one nonce -/

open Submitters in
/-- **No two pending transactions share a nonce** in every run in which a
nonce is answered only while the service has no pending transaction under
it and the other task prepares none. -/
theorem submitters_exclusive (config : Config) (count : Nat) (as : List Submitters.Action)
    (halone : Along (step config) ReadsAlone (start count) as) :
    (run (step config) (start count) as).Exclusive := by
  have hrun : Apart config.walletAddress (run (step config) (start count) as) :=
    run_invariant _ (fun _ _ h hP => h.step hP) (apart_start config.walletAddress count) halone
  exact hrun.exclusive

/-- An attempt of a task with the value `value` under the given nonce, up to
its send. -/
def upToSend (t : Submitter) (value nonce : U256) : List Submitters.Action :=
  let tx : Option U256 → Eip1559Transaction := fun gas =>
    { sampleTx nonce gas with value := value }
  [⟨.estimateEip1559Fees, .ok (2, 1)⟩, ⟨.getTransactionCount 9, .ok nonce⟩,
    ⟨.fillTransaction (tx none), .ok (some 60000)⟩, ⟨.call (tx (some 90000)), .ok ()⟩,
    ⟨.signTransaction (tx (some 90000)), .ok ()⟩,
    ⟨.sendRawTransaction (tx (some 90000)), .ok ()⟩].map (.reply t)

open Submitters in
/-- The poller's transaction is included before the executor reads its
nonce. -/
theorem submitters_exclusive_sample :
    (run (step sampleConfig) (start 0)
      ([.call .poller 10] ++ upToSend .poller 10 0 ++ [.mine (sampleTx 0 (some 90000)),
        .call .executor 11] ++ upToSend .executor 11 1)).Exclusive :=
  submitters_exclusive sampleConfig 0 _ (by
    simp only [upToSend, List.map, List.cons_append, List.nil_append]
    refine ⟨trivial, trivial, ⟨?_, ?_⟩, trivial, trivial, trivial, trivial, trivial, trivial,
      trivial, ⟨?_, ?_⟩, trivial, trivial, trivial, trivial, trivial⟩
    · intro ⟨tx, htx, _⟩
      cases htx
    · rintro (_ | _) hne h
      · cases h
      · exact hne rfl
    · rintro ⟨tx, htx, -, hnonce⟩
      obtain rfl := List.mem_singleton.mp htx
      cases hnonce
    · rintro (_ | _) hne h
      · exact hne rfl
      · cases h)

open Submitters in
/-- The two tasks call one after the other, before anything is included: they
broadcast two transactions under the nonce `0`. -/
theorem two_transactions_one_nonce :
    let s := run (step sampleConfig) (start 0)
      ([.call .poller 10, .call .executor 11] ++ upToSend .poller 10 0
        ++ upToSend .executor 11 0)
    s.included = []
      ∧ s.broadcast = [{ sampleTx 0 (some 90000) with value := 11 }, sampleTx 0 (some 90000)]
      ∧ ¬ s.Exclusive := by
  intro s
  have hbroadcast : s.broadcast
      = [{ sampleTx 0 (some 90000) with value := 11 }, sampleTx 0 (some 90000)] := rfl
  have hincluded : s.included = [] := rfl
  refine ⟨hincluded, hbroadcast, ?_⟩
  intro hexcl
  have hnone := hexcl (sampleTx 0 (some 90000)) (by rw [hbroadcast]; decide)
    { sampleTx 0 (some 90000) with value := 11 } (by rw [hbroadcast]; decide) (by decide) rfl
  rw [hincluded] at hnone
  rcases hnone with h | h <;> cases h

end WorldIDBridge.Service
