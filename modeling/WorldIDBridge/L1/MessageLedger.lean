import WorldIDBridge.L1.MessagePipes

/-!
# What the events say of the pipes

The events tell the whole story of a message: that it was sent, for which
fee, and whether it was cancelled or consumed. The tables of the contract
hold what the events wrote, under hashes, and a call that succeeds emits an
event that is allowed after those before it.
-/

namespace WorldIDBridge.L1.StarknetMessaging.Hashed

open Checked TransitionRun

/-! ## Tables read back -/

/-- What an event writes of the fee of a message, plus one. -/
def feeWrite (r : Record) : Option (L1ToL2Message × U256) :=
  match r.event with
  | .logMessageToL2 m fee => some (m, fee + 1)
  | .messageToL2Canceled m => some (m, 0)
  | .consumedMessageToL2 m => some (m, 0)
  | _ => none

/-- What an event writes of the time a cancellation was asked for. -/
def requestWrite (r : Record) : Option (L1ToL2Message × U256) :=
  match r.event with
  | .messageToL2CancellationStarted m => some (m, r.timestamp)
  | _ => none

/-- The fee plus one of a message that is pending, zero of any other. -/
def feePlusOne : List Record → L1ToL2Message → U256 := Replay.table feeWrite fun _ => 0

/-- The time of the last request to cancel a message, zero without one. -/
def requestTime : List Record → L1ToL2Message → U256 := Replay.table requestWrite fun _ => 0

/-- How often a message to L1 can be consumed. -/
def balance : List Record → L2ToL1Message → U256
  | [] => fun _ => 0
  | r :: rs =>
      match r.event with
      | .logMessageToL1 m => Function.update (balance rs) m (balance rs m + 1)
      | .consumedMessageToL1 m => Function.update (balance rs) m (balance rs m - 1)
      | _ => balance rs

def Record.sent? (r : Record) : Option (L1ToL2Message × U256) :=
  match r.event with
  | .logMessageToL2 m fee => some (m, fee)
  | _ => none

/-- The messages sent to L2 with their fees, newest first. -/
def sent (rs : List Record) : List (L1ToL2Message × U256) := rs.filterMap Record.sent?

/-- What has to hold for an event to follow the records before it. -/
def Allowed (rs : List Record) (r : Record) : Prop :=
  match r.event with
  | .logMessageToL2 m fee =>
      FeeAccepted fee ∧ m.nonce.toNat = (sent rs).length ∧ m.nonce.toNat + 1 < 2 ^ 256
  | .messageToL2CancellationStarted m => feePlusOne rs m ≠ 0
  | .messageToL2Canceled m =>
      feePlusOne rs m ≠ 0 ∧ requestTime rs m ≠ 0
        ∧ (requestTime rs m).toNat + r.delay.toNat ≤ r.timestamp.toNat
  | .consumedMessageToL2 m => feePlusOne rs m ≠ 0
  | .logMessageToL1 m => (balance rs m).toNat + 1 < 2 ^ 256
  | .consumedMessageToL1 m => balance rs m ≠ 0

/-- Every event was allowed after those before it. -/
def Valid : List Record → Prop
  | [] => True
  | r :: rs => Allowed rs r ∧ Valid rs

/-! ## What each function does -/

section Functions

variable {keccak256 : Keccak} {self : Storage} {timestamp : U256}

theorem maxL1MsgFee_toNat : maxL1MsgFee.toNat = 10 ^ 18 := by decide

theorem pos_iff_ne_zero {x : U256} : 0 < x ↔ x ≠ 0 := by
  rw [BitVec.lt_def, ne_eq, BitVec.toNat_eq]
  exact Nat.pos_iff_ne_zero

/-- An accepted fee is far from the end of the word. -/
theorem fee_lt {fee : U256} (h : FeeAccepted fee) : fee.toNat + (1 : U256).toNat < 2 ^ 256 := by
  have hle : fee.toNat ≤ 10 ^ 18 := maxL1MsgFee_toNat ▸ BitVec.le_def.mp h.2
  have hone : (1 : U256).toNat = 1 := rfl
  omega

theorem fee_add_one_ne_zero {fee : U256} (h : FeeAccepted fee) : fee + 1 ≠ 0 := by
  intro hzero
  have hnat := toNat_add (fee_lt h)
  rw [hzero] at hnat
  have hone : (1 : U256).toNat = 1 := rfl
  have h0 : (0 : U256).toNat = 0 := rfl
  omega

theorem sendMessageToL2_eq_ok {msg : Msg} {toAddress selector : U256} {payload : List U256}
    {r : Receipt × U256} :
    sendMessageToL2 keccak256 self msg toAddress selector payload = .ok r
      ↔ FeeAccepted msg.value
        ∧ self.l1ToL2MessageNonce.toNat + (1 : U256).toNat < 2 ^ 256
        ∧ r = (⟨{ self with
              l1ToL2MessageNonce := self.l1ToL2MessageNonce + 1
              l1ToL2Messages := Function.update self.l1ToL2Messages
                (getL1ToL2MsgHash keccak256
                  ⟨msg.sender, toAddress, selector, payload, self.l1ToL2MessageNonce⟩)
                (msg.value + 1) },
            .logMessageToL2
              ⟨msg.sender, toAddress, selector, payload, self.l1ToL2MessageNonce⟩ msg.value,
            getL1ToL2MsgHash keccak256
              ⟨msg.sender, toAddress, selector, payload, self.l1ToL2MessageNonce⟩⟩,
          self.l1ToL2MessageNonce) := by
  rw [sendMessageToL2, assert_bind_eq_ok, assert_bind_eq_ok, bind_eq_ok]
  simp only [bind_eq_ok, checkedAdd_eq_ok, pure_eq_ok, Except.ok.injEq]
  constructor
  · intro h
    obtain ⟨hpos, hle, nonce, ⟨hnonce, heq⟩, fee, ⟨-, hfee⟩, hr⟩ := h
    subst heq hfee
    exact ⟨⟨hpos, hle⟩, hnonce, hr.symm⟩
  · intro h
    obtain ⟨hfee, hnonce, hr⟩ := h
    exact ⟨hfee.1, hfee.2, _, ⟨hnonce, rfl⟩, _, ⟨fee_lt hfee, rfl⟩, hr.symm⟩

theorem consumeMessageFromL2_eq_ok {sender : EthAddress} {fromAddress : U256}
    {payload : List U256} {r : Receipt} :
    consumeMessageFromL2 keccak256 self sender fromAddress payload = .ok r
      ↔ self.l2ToL1Messages (l2ToL1MsgHash keccak256 ⟨fromAddress, sender, payload⟩) ≠ 0
        ∧ r = ⟨{ self with
              l2ToL1Messages := Function.update self.l2ToL1Messages
                (l2ToL1MsgHash keccak256 ⟨fromAddress, sender, payload⟩)
                (self.l2ToL1Messages (l2ToL1MsgHash keccak256 ⟨fromAddress, sender, payload⟩)
                  - 1) },
            .consumedMessageToL1 ⟨fromAddress, sender, payload⟩,
            l2ToL1MsgHash keccak256 ⟨fromAddress, sender, payload⟩⟩ := by
  rw [consumeMessageFromL2, assert_bind_eq_ok, gt_iff_lt, pos_iff_ne_zero, pure_eq_ok,
    Except.ok.injEq, eq_comm (a := r)]

theorem startL1ToL2MessageCancellation_eq_ok {sender : EthAddress} {toAddress selector : U256}
    {payload : List U256} {nonce : U256} {r : Receipt} :
    startL1ToL2MessageCancellation keccak256 self sender timestamp toAddress selector payload
        nonce = .ok r
      ↔ self.l1ToL2Messages
            (getL1ToL2MsgHash keccak256 ⟨sender, toAddress, selector, payload, nonce⟩) ≠ 0
        ∧ r = ⟨{ self with
              l1ToL2MessageCancellations := Function.update self.l1ToL2MessageCancellations
                (getL1ToL2MsgHash keccak256 ⟨sender, toAddress, selector, payload, nonce⟩)
                timestamp },
            .messageToL2CancellationStarted ⟨sender, toAddress, selector, payload, nonce⟩,
            getL1ToL2MsgHash keccak256 ⟨sender, toAddress, selector, payload, nonce⟩⟩ := by
  rw [startL1ToL2MessageCancellation, assert_bind_eq_ok, gt_iff_lt, pos_iff_ne_zero,
    pure_eq_ok, Except.ok.injEq, eq_comm (a := r)]

/-- Without an overflow the sum is no smaller: the check after the checked
addition never fails. -/
theorem cancelAllowedTime_ge {a b : U256} (h : a.toNat + b.toNat < 2 ^ 256) : a ≤ a + b := by
  rw [BitVec.le_def, toNat_add h]
  exact Nat.le_add_right ..

theorem cancelL1ToL2Message_eq_ok {sender : EthAddress} {toAddress selector : U256}
    {payload : List U256} {nonce : U256} {r : Receipt} :
    cancelL1ToL2Message keccak256 self sender timestamp toAddress selector payload nonce
        = .ok r
      ↔ self.l1ToL2Messages
            (getL1ToL2MsgHash keccak256 ⟨sender, toAddress, selector, payload, nonce⟩) ≠ 0
        ∧ self.l1ToL2MessageCancellations
            (getL1ToL2MsgHash keccak256 ⟨sender, toAddress, selector, payload, nonce⟩) ≠ 0
        ∧ (self.l1ToL2MessageCancellations
              (getL1ToL2MsgHash keccak256 ⟨sender, toAddress, selector, payload, nonce⟩)).toNat
            + self.messageCancellationDelay.toNat ≤ timestamp.toNat
        ∧ r = ⟨{ self with
              l1ToL2Messages := Function.update self.l1ToL2Messages
                (getL1ToL2MsgHash keccak256 ⟨sender, toAddress, selector, payload, nonce⟩) 0 },
            .messageToL2Canceled ⟨sender, toAddress, selector, payload, nonce⟩,
            getL1ToL2MsgHash keccak256 ⟨sender, toAddress, selector, payload, nonce⟩⟩ := by
  rw [cancelL1ToL2Message, assert_bind_eq_ok, assert_bind_eq_ok, bind_eq_ok]
  simp only [checkedAdd_eq_ok, assert_bind_eq_ok, pure_eq_ok, Except.ok.injEq]
  constructor
  · intro h
    obtain ⟨hpending, hrequested, allowed, ⟨hadd, heq⟩, -, htime, hr⟩ := h
    subst heq
    rw [ge_iff_le, BitVec.le_def, toNat_add hadd] at htime
    exact ⟨hpending, hrequested, htime, hr.symm⟩
  · intro h
    obtain ⟨hpending, hrequested, htime, hr⟩ := h
    have hadd := Nat.lt_of_le_of_lt htime timestamp.isLt
    refine ⟨hpending, hrequested, _, ⟨hadd, rfl⟩, cancelAllowedTime_ge hadd, ?_, hr.symm⟩
    rw [ge_iff_le, BitVec.le_def, toNat_add hadd]
    exact htime

end Functions

/-! ## Runs -/

/-- The words a call hashes. -/
def Call.words {X : Type} (self : Storage) : Call X → List U256
  | .sendMessageToL2 msg toAddress selector payload =>
      L1ToL2Message.words ⟨msg.sender, toAddress, selector, payload, self.l1ToL2MessageNonce⟩
  | .consumeMessageFromL2 sender fromAddress payload =>
      L2ToL1Message.words ⟨fromAddress, sender, payload⟩
  | .startL1ToL2MessageCancellation sender toAddress selector payload nonce =>
      L1ToL2Message.words ⟨sender, toAddress, selector, payload, nonce⟩
  | .cancelL1ToL2Message sender toAddress selector payload nonce =>
      L1ToL2Message.words ⟨sender, toAddress, selector, payload, nonce⟩
  | .consumeMessageToL2 _ m => m.words
  | .addMessageToL1 _ m => m.words

section Runs

variable (keccak256 : Keccak) (S : Set (List U256)) {X : Type}

/-- The action hashes words of `S` only. -/
def HashesIn (s : Core) : Action X → Prop
  | .call _ call => call.words s.storage ∈ S
  | .messageCancellationDelay _ => True

/-- The storage holds what the events wrote. -/
structure Tracks (storage : Storage) (rs : List Record) : Prop where
  nonce : storage.l1ToL2MessageNonce.toNat = (sent rs).length
  fees : HashedTable.Holds (getL1ToL2MsgHash keccak256) (Set.preimage L1ToL2Message.words S)
    storage.l1ToL2Messages (feePlusOne rs)
  requests : HashedTable.Holds (getL1ToL2MsgHash keccak256)
    (Set.preimage L1ToL2Message.words S) storage.l1ToL2MessageCancellations (requestTime rs)
  balances : HashedTable.Holds (l2ToL1MsgHash keccak256)
    (Set.preimage L2ToL1Message.words S) storage.l2ToL1Messages (balance rs)
  known : ∀ p ∈ sent rs, p.1.words ∈ S

variable {keccak256 S} {derived : DerivedContract X}

theorem injOn_l1ToL2 (hinj : Set.InjOn keccak256 S) :
    Set.InjOn (getL1ToL2MsgHash keccak256) (Set.preimage L1ToL2Message.words S) := by
  intro m hm m' hm' heq
  exact L1ToL2Message.words_injective (hinj hm hm' heq)

theorem injOn_l2ToL1 (hinj : Set.InjOn keccak256 S) :
    Set.InjOn (l2ToL1MsgHash keccak256) (Set.preimage L2ToL1Message.words S) := by
  intro m hm m' hm' heq
  exact L2ToL1Message.words_injective (hinj hm hm' heq)

theorem tracks_initial (delay : U256) : Tracks keccak256 S (.initial delay) [] where
  nonce := rfl
  fees := .const 0
  requests := .const 0
  balances := .const 0
  known p hp := by cases hp

/-- **One lemma for all functions**: a call that succeeds emits an event that
is allowed, and the tables go on holding what the events wrote. -/
theorem exec_tracks (hderived : derived.Documented keccak256) (hinj : Set.InjOn keccak256 S)
    {self : Storage} {rs : List Record} (h : Tracks keccak256 S self rs) {timestamp : U256}
    {call : Call X} (hwords : call.words self ∈ S) {r : Receipt}
    (hexec : exec keccak256 self derived timestamp call = .ok r) :
    Allowed rs ⟨timestamp, self.messageCancellationDelay, r.event⟩
      ∧ Tracks keccak256 S r.storage
        (⟨timestamp, self.messageCancellationDelay, r.event⟩ :: rs) := by
  have hL2 := injOn_l1ToL2 hinj
  have hL1 := injOn_l2ToL1 hinj
  cases call with
  | sendMessageToL2 msg toAddress selector payload =>
      obtain ⟨⟨r', nonce⟩, hsend, hr⟩ := bind_eq_ok.mp hexec
      obtain ⟨hfee, hnonce, heq⟩ := sendMessageToL2_eq_ok.mp hsend
      obtain ⟨rfl, rfl⟩ := Prod.mk.inj heq
      obtain rfl := Except.ok.inj hr
      refine ⟨⟨hfee, h.nonce, hnonce⟩, ?_, h.fees.update hL2 hwords _, h.requests,
        h.balances, ?_⟩
      · -- one more message, one more nonce
        show (self.l1ToL2MessageNonce + 1).toNat = (sent rs).length + 1
        rw [toNat_add hnonce, h.nonce]
        rfl
      · intro p hp
        rcases List.mem_cons.mp hp with heq | hp
        · rw [heq]
          exact hwords
        · exact h.known p hp
  | consumeMessageFromL2 sender fromAddress payload =>
      obtain ⟨hcount, rfl⟩ := consumeMessageFromL2_eq_ok.mp hexec
      rw [h.balances _ hwords] at hcount
      exact ⟨hcount, h.nonce, h.fees, h.requests, h.balances.modify hL1 hwords (· - 1),
        h.known⟩
  | startL1ToL2MessageCancellation sender toAddress selector payload nonce =>
      obtain ⟨hpending, rfl⟩ := startL1ToL2MessageCancellation_eq_ok.mp hexec
      rw [h.fees _ hwords] at hpending
      exact ⟨hpending, h.nonce, h.fees, h.requests.update hL2 hwords _, h.balances,
        h.known⟩
  | cancelL1ToL2Message sender toAddress selector payload nonce =>
      obtain ⟨hpending, hrequested, htime, rfl⟩ := cancelL1ToL2Message_eq_ok.mp hexec
      rw [h.fees _ hwords] at hpending
      rw [h.requests _ hwords] at hrequested htime
      exact ⟨⟨hpending, hrequested, htime⟩, h.nonce, h.fees.update hL2 hwords _, h.requests,
        h.balances, h.known⟩
  | consumeMessageToL2 x m =>
      obtain ⟨hpending, hstorage, hevent⟩ := hderived.consumeMessageToL2 hexec
      rw [h.fees _ hwords] at hpending
      rw [hstorage, hevent]
      exact ⟨hpending, h.nonce, h.fees.update hL2 hwords _, h.requests, h.balances,
        h.known⟩
  | addMessageToL1 x m =>
      obtain ⟨hadd, hstorage, hevent⟩ := hderived.addMessageToL1 hexec
      rw [h.balances _ hwords] at hadd
      rw [hstorage, hevent]
      exact ⟨hadd, h.nonce, h.fees, h.requests, h.balances.modify hL1 hwords (· + 1),
        h.known⟩

/-- The storage is what its valid history of events wrote. -/
def Legible (keccak256 : Keccak) (S : Set (List U256)) (s : Core) : Prop :=
  Valid s.records ∧ Tracks keccak256 S s.storage s.records

theorem Legible.step (hderived : derived.Documented keccak256) (hinj : Set.InjOn keccak256 S)
    {s : Core} (h : Legible keccak256 S s) {a : Action X} (ha : HashesIn S s a) :
    Legible keccak256 S (s.step keccak256 derived a) := by
  obtain ⟨hvalid, htracks⟩ := h
  cases a with
  | call timestamp call =>
      rw [Core.step]
      cases hexec : exec keccak256 s.storage derived timestamp call with
      | error e => exact ⟨hvalid, htracks⟩
      | ok r =>
          obtain ⟨hallowed, hnext⟩ := exec_tracks hderived hinj htracks ha hexec
          exact ⟨⟨hallowed, hvalid⟩, hnext⟩
  | messageCancellationDelay delay =>
      exact ⟨hvalid, htracks.nonce, htracks.fees, htracks.requests, htracks.balances,
        htracks.known⟩

/-- **The events tell the whole story**, in every run whose messages have
different hashes. -/
theorem legible_run (hderived : derived.Documented keccak256) (hinj : Set.InjOn keccak256 S)
    (delay : U256) {as : List (Action X)}
    (hwords : Along (Core.step keccak256 derived) (HashesIn S) (.start delay) as) :
    Legible keccak256 S (run (Core.step keccak256 derived) (.start delay) as) :=
  run_invariant _ (I := Legible keccak256 S) (fun _ _ h ha => h.step hderived hinj ha)
    ⟨trivial, tracks_initial delay⟩ hwords

end Runs

end WorldIDBridge.L1.StarknetMessaging.Hashed
