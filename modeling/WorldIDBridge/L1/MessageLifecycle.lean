import WorldIDBridge.L1.MessageLedger
import WorldIDBridge.L1.StarkStateBridge

/-!
# The life of a message

A message to L2 is sent once, is pending, and leaves the pipe once: consumed,
or cancelled by its sender, who had asked for it a delay before. A message to
L1 is consumed no more often than it was published, by its recipient.
-/

namespace WorldIDBridge.L1.StarknetMessaging.Hashed

open Checked TransitionRun

/-! ## Valid histories -/

/-- The message to L2 an event is about. -/
def Record.message? (r : Record) : Option L1ToL2Message :=
  match r.event with
  | .logMessageToL2 m _ => some m
  | .messageToL2CancellationStarted m => some m
  | .messageToL2Canceled m => some m
  | .consumedMessageToL2 m => some m
  | _ => none

/-- The event takes the message out of the pipe. -/
def Settles (m : L1ToL2Message) (r : Record) : Bool :=
  r.event = .messageToL2Canceled m ∨ r.event = .consumedMessageToL2 m

/-- How often a message was taken out of the pipe. -/
def settled (rs : List Record) (m : L1ToL2Message) : Nat := rs.countP (Settles m)

theorem Record.sent?_eq_some {r : Record} {p : L1ToL2Message × U256} :
    r.sent? = some p ↔ r.event = .logMessageToL2 p.1 p.2 := by
  rw [Record.sent?]
  cases hevent : r.event with
  | logMessageToL2 m fee => simp [Prod.ext_iff]
  | _ => simp

theorem requestWrite_eq_some {r : Record} {m : L1ToL2Message} {t : U256} :
    requestWrite r = some (m, t)
      ↔ r.event = .messageToL2CancellationStarted m ∧ r.timestamp = t := by
  rw [requestWrite]
  cases hevent : r.event with
  | messageToL2CancellationStarted m' => simp
  | _ => simp

/-- A request time that is not zero is that of the last request. -/
theorem requestTime_eq {rs : List Record} {m : L1ToL2Message} {t : U256} (ht : t ≠ 0) :
    requestTime rs m = t
      ↔ ∃ es₁ request es₂, rs = es₁ ++ request :: es₂
        ∧ request.event = .messageToL2CancellationStarted m
        ∧ (∀ r ∈ es₁, r.event ≠ .messageToL2CancellationStarted m)
        ∧ request.timestamp = t := by
  constructor
  · intro h
    have hne : requestTime rs m ≠ 0 := h ▸ ht
    obtain ⟨es₁, request, es₂, hrs, hwrite, hsilent⟩ := Replay.exists_newest hne
    obtain ⟨hevent, htime⟩ := requestWrite_eq_some.mp hwrite
    refine ⟨es₁, request, es₂, hrs, hevent, ?_, htime.trans h⟩
    intro r hr heq
    exact hsilent r hr r.timestamp (requestWrite_eq_some.mpr ⟨heq, rfl⟩)
  · intro h
    obtain ⟨es₁, request, es₂, rfl, hevent, hlast, htime⟩ := h
    have hsilent : Replay.Silent requestWrite es₁ m := by
      intro r hr b hwrite
      exact hlast r hr (requestWrite_eq_some.mp hwrite).1
    rw [requestTime, hsilent.table_append,
      Replay.table_cons_some (requestWrite_eq_some.mpr ⟨hevent, htime⟩), Function.update_self]

/-- The nonces count the messages: the newest is one below their number. -/
theorem Valid.nonces {rs : List Record} (h : Valid rs) :
    (sent rs).map (fun p => p.1.nonce.toNat) = (List.range (sent rs).length).reverse := by
  induction rs with
  | nil => rfl
  | cons r rs ih =>
      obtain ⟨hallowed, hvalid⟩ := h
      cases hsent : r.sent? with
      | none =>
          rw [sent, List.filterMap_cons_none hsent]
          exact ih hvalid
      | some p =>
          have hnonce : p.1.nonce.toNat = (sent rs).length := by
            rw [Allowed, Record.sent?_eq_some.mp hsent] at hallowed
            exact hallowed.2.1
          have hcons : sent (r :: rs) = p :: sent rs := List.filterMap_cons_some hsent
          rw [hcons, List.map_cons, ih hvalid, hnonce, List.length_cons, List.range_succ,
            List.reverse_append]
          rfl

theorem Valid.nonce_lt {rs : List Record} (h : Valid rs) {p : L1ToL2Message × U256}
    (hp : p ∈ sent rs) : p.1.nonce.toNat < (sent rs).length := by
  have hmem : p.1.nonce.toNat ∈ (sent rs).map fun p => p.1.nonce.toNat :=
    List.mem_map_of_mem (f := fun p : L1ToL2Message × U256 => p.1.nonce.toNat) hp
  rw [h.nonces, List.mem_reverse, List.mem_range] at hmem
  exact hmem

theorem settled_eq_zero {rs : List Record} {m : L1ToL2Message} :
    settled rs m = 0
      ↔ ∀ r ∈ rs, r.event ≠ .messageToL2Canceled m ∧ r.event ≠ .consumedMessageToL2 m := by
  rw [settled, List.countP_eq_zero]
  refine forall₂_congr fun r _ => ?_
  rw [Settles, decide_eq_true_eq, not_or]

/-- Where a message to L2 can be. -/
inductive Story (rs : List Record) (m : L1ToL2Message) : Prop where
  | unsent (never : ∀ fee, (m, fee) ∉ sent rs) (entry : feePlusOne rs m = 0)
      (request : requestTime rs m = 0) (count : settled rs m = 0)
  | pending (fee : U256) (once : ∀ fee', (m, fee') ∈ sent rs ↔ fee' = fee)
      (accepted : FeeAccepted fee) (entry : feePlusOne rs m = fee + 1)
      (count : settled rs m = 0)
  | gone (fee : U256) (once : ∀ fee', (m, fee') ∈ sent rs ↔ fee' = fee)
      (accepted : FeeAccepted fee) (entry : feePlusOne rs m = 0) (count : settled rs m = 1)

/-- An event about another message tells nothing of this one. -/
theorem Story.frame {rs : List Record} {m : L1ToL2Message} (h : Story rs m) {r : Record}
    (hr : r.message? ≠ some m) : Story (r :: rs) m := by
  have hsent : ∀ fee, (m, fee) ∈ sent (r :: rs) ↔ (m, fee) ∈ sent rs := by
    intro fee
    cases hs : r.sent? with
    | none => rw [sent, List.filterMap_cons_none hs, sent]
    | some p =>
        have hcons : sent (r :: rs) = p :: sent rs := List.filterMap_cons_some hs
        have hne : (m, fee) ≠ p := by
          intro heq
          subst heq
          rw [Record.message?, Record.sent?_eq_some.mp hs] at hr
          exact hr rfl
        rw [hcons, List.mem_cons, or_iff_right hne]
  have hother : feePlusOne (r :: rs) m = feePlusOne rs m
      ∧ requestTime (r :: rs) m = requestTime rs m ∧ settled (r :: rs) m = settled rs m := by
    obtain ⟨timestamp, delay, event⟩ := r
    cases event with
    | logMessageToL2 m' fee =>
        have hne : m ≠ m' := fun heq => hr (congrArg some heq.symm)
        exact ⟨Function.update_of_ne hne .., rfl, rfl⟩
    | messageToL2CancellationStarted m' =>
        have hne : m ≠ m' := fun heq => hr (congrArg some heq.symm)
        exact ⟨rfl, Function.update_of_ne hne .., rfl⟩
    | messageToL2Canceled m' =>
        have hne : m ≠ m' := fun heq => hr (congrArg some heq.symm)
        refine ⟨Function.update_of_ne hne .., rfl, ?_⟩
        exact List.countP_cons_of_neg (by simp [Settles, hne.symm])
    | consumedMessageToL2 m' =>
        have hne : m ≠ m' := fun heq => hr (congrArg some heq.symm)
        refine ⟨Function.update_of_ne hne .., rfl, ?_⟩
        exact List.countP_cons_of_neg (by simp [Settles, hne.symm])
    | consumedMessageToL1 m' => exact ⟨rfl, rfl, rfl⟩
    | logMessageToL1 m' => exact ⟨rfl, rfl, rfl⟩
  obtain ⟨hfee, hrequest, hcount⟩ := hother
  cases h with
  | unsent never entry request count =>
      refine .unsent (fun fee hmem => never fee ((hsent fee).mp hmem)) ?_ ?_ ?_
      · rw [hfee, entry]
      · rw [hrequest, request]
      · rw [hcount, count]
  | pending fee once accepted entry count =>
      refine .pending fee (fun fee' => (hsent fee').trans (once fee')) accepted ?_ ?_
      · rw [hfee, entry]
      · rw [hcount, count]
  | gone fee once accepted entry count =>
      refine .gone fee (fun fee' => (hsent fee').trans (once fee')) accepted ?_ ?_
      · rw [hfee, entry]
      · rw [hcount, count]

/-- Only a pending message has an entry. -/
theorem Story.of_entry {rs : List Record} {m : L1ToL2Message} (h : Story rs m)
    (hentry : feePlusOne rs m ≠ 0) :
    ∃ fee, (∀ fee', (m, fee') ∈ sent rs ↔ fee' = fee) ∧ FeeAccepted fee
      ∧ feePlusOne rs m = fee + 1 ∧ settled rs m = 0 := by
  cases h with
  | unsent _ entry => exact absurd entry hentry
  | pending fee once accepted entry count => exact ⟨fee, once, accepted, entry, count⟩
  | gone _ _ _ entry => exact absurd entry hentry

/-- An event that takes a pending message out of the pipe ends its story. -/
theorem Story.settle {rs : List Record} {m : L1ToL2Message} (h : Story rs m)
    (hentry : feePlusOne rs m ≠ 0) {r : Record} (hsettles : Settles m r = true)
    (hsent : r.sent? = none) (hwrite : feeWrite r = some (m, 0)) : Story (r :: rs) m := by
  obtain ⟨fee, once, accepted, -, count⟩ := h.of_entry hentry
  refine .gone fee (fun fee' => ?_) accepted ?_ ?_
  · rw [sent, List.filterMap_cons_none hsent]
    exact once fee'
  · rw [feePlusOne, Replay.table_cons_some hwrite, Function.update_self]
  · rw [settled, List.countP_cons_of_pos hsettles]
    exact congrArg (· + 1) count

/-- **Every message has its story**: sent once, then pending with its fee on
record, then taken out once and for all. The cases are those of the newest
event. -/
theorem Valid.story {rs : List Record} (h : Valid rs) (m : L1ToL2Message) : Story rs m := by
  induction rs with
  | nil => exact .unsent (fun _ => List.not_mem_nil) rfl rfl rfl
  | cons r rs ih =>
      obtain ⟨hallowed, hvalid⟩ := h
      have ih := ih hvalid
      by_cases hm : r.message? = some m
      swap
      · exact ih.frame hm
      obtain ⟨timestamp, delay, event⟩ := r
      cases event with
      | logMessageToL2 m' fee =>
          obtain rfl := Option.some.inj hm
          obtain ⟨hfee, hnonce, -⟩ := hallowed
          -- its nonce is new, so the message is
          have hnew : ∀ fee', (m', fee') ∉ sent rs := fun fee' hmem =>
            Nat.ne_of_lt (hvalid.nonce_lt hmem) hnonce
          have hcount : settled rs m' = 0 := by
            cases ih with
            | unsent _ _ _ count => exact count
            | pending fee' once _ _ _ => exact absurd ((once fee').mpr rfl) (hnew fee')
            | gone fee' once _ _ _ => exact absurd ((once fee').mpr rfl) (hnew fee')
          refine .pending fee (fun fee' => ?_) hfee (Function.update_self ..) hcount
          have hcons : sent (⟨timestamp, delay, .logMessageToL2 m' fee⟩ :: rs)
              = (m', fee) :: sent rs := rfl
          rw [hcons, List.mem_cons, or_iff_left (hnew fee'), Prod.mk.injEq]
          exact and_iff_right rfl
      | messageToL2CancellationStarted m' =>
          obtain rfl := Option.some.inj hm
          obtain ⟨fee, once, accepted, entry, count⟩ := ih.of_entry hallowed
          exact .pending fee once accepted entry count
      | messageToL2Canceled m' =>
          obtain rfl := Option.some.inj hm
          exact ih.settle hallowed.1 (by simp [Settles]) rfl rfl
      | consumedMessageToL2 m' =>
          obtain rfl := Option.some.inj hm
          exact ih.settle hallowed (by simp [Settles]) rfl rfl
      | consumedMessageToL1 m' => cases hm
      | logMessageToL1 m' => cases hm

/-! ## A message of each kind -/

/-- A message of the account `7` for the root `5`. -/
def sampleMessage : L1ToL2Message := ⟨7, 3, handleReceiveRootSelector, [5, 0], 0⟩

/-- The same message again, under the next nonce. -/
def sampleSecond : L1ToL2Message := { sampleMessage with nonce := 1 }

def sampleMessageToL1 : L2ToL1Message := ⟨3, 7, [9]⟩

/-- The hashes of the three messages. -/
def sampleKeccak : Keccak := fun words =>
  if words = sampleMessage.words then
    0x85c113dd7439f46efd4b12e348798bc42c491cd198dc365444f6d62f4466ca86
  else if words = sampleSecond.words then
    0xd6bb800a7f0f473fc856b591568e2396fed2d632d4bdd540cb701189ea6b8a8d
  else if words = sampleMessageToL1.words then
    0x8e25fbb7884da8277ab257a688108d4809584f063a49b6524ca4672de5c4e199
  else 0

def sampleWords : Set (List U256) :=
  {w | w ∈ [sampleMessage.words, sampleSecond.words, sampleMessageToL1.words]}

theorem sampleKeccak_injOn : Set.InjOn sampleKeccak sampleWords := by
  have hlist : ∀ w ∈ [sampleMessage.words, sampleSecond.words, sampleMessageToL1.words],
      ∀ w' ∈ [sampleMessage.words, sampleSecond.words, sampleMessageToL1.words],
        sampleKeccak w = sampleKeccak w' → w = w' := by decide
  exact fun w hw w' hw' => hlist w hw w' hw'

/-- A derived contract that takes any pending message out of the pipe to L2,
and puts any message into the other. -/
def sampleDerived : DerivedContract Unit where
  consumeMessageToL2 _ self m := do
    let msgHash := getL1ToL2MsgHash sampleKeccak m
    assert (self.l1ToL2Messages msgHash > 0) .invalidMessageToConsume
    return ⟨{ self with l1ToL2Messages := Function.update self.l1ToL2Messages msgHash 0 },
      .consumedMessageToL2 m, msgHash⟩
  addMessageToL1 _ self m := do
    let msgHash := l2ToL1MsgHash sampleKeccak m
    let count ← checkedAdd (self.l2ToL1Messages msgHash) 1
    return ⟨{ self with l2ToL1Messages := Function.update self.l2ToL1Messages msgHash count },
      .logMessageToL1 m, msgHash⟩

theorem sampleDerived_documented : sampleDerived.Documented sampleKeccak where
  consumeMessageToL2 h := by
    obtain ⟨hpending, hr⟩ := assert_bind_eq_ok.mp h
    obtain rfl := Except.ok.inj hr
    exact ⟨pos_iff_ne_zero.mp hpending, rfl, rfl⟩
  addMessageToL1 h := by
    obtain ⟨count, hadd, hr⟩ := bind_eq_ok.mp h
    obtain ⟨hlt, rfl⟩ := checkedAdd_eq_ok.mp hadd
    obtain rfl := Except.ok.inj hr
    exact ⟨hlt, rfl, rfl⟩

/-- The message is sent, for a fee of `10`. -/
def sampleSent : List (Action Unit) :=
  [.call 100 (.sendMessageToL2 ⟨7, 10⟩ 3 handleReceiveRootSelector [5, 0])]

/-- Its sender asks for its cancellation. -/
def sampleRequested : List (Action Unit) :=
  sampleSent
    ++ [.call 101 (.startL1ToL2MessageCancellation 7 3 handleReceiveRootSelector [5, 0] 0)]

/-- It is cancelled, the second one sent and consumed. -/
def sampleSettled : List (Action Unit) :=
  sampleRequested
    ++ [.call 120 (.sendMessageToL2 ⟨7, 20⟩ 3 handleReceiveRootSelector [5, 0]),
      .call 151 (.cancelL1ToL2Message 7 3 handleReceiveRootSelector [5, 0] 0),
      .call 160 (.consumeMessageToL2 () sampleSecond)]

/-- The message to L1 is published and consumed. -/
def sampleConsumed : List (Action Unit) :=
  [.call 100 (.addMessageToL1 () sampleMessageToL1), .call 101 (.consumeMessageFromL2 7 3 [9])]

theorem along_sampleSent : Along (Core.step sampleKeccak sampleDerived) (HashesIn sampleWords)
    (.start 50) sampleSent :=
  ⟨List.mem_cons_self, trivial⟩

theorem along_sampleSettled : Along (Core.step sampleKeccak sampleDerived)
    (HashesIn sampleWords) (.start 50) sampleSettled := by
  refine ⟨?_, ?_, ?_, ?_, ?_, trivial⟩ <;> show _ ∈ [_, _, _] <;> decide

/-! ## Messages to L2 in a run -/

section Runs

variable {keccak256 : Keccak} {S : Set (List U256)} {X : Type} {derived : DerivedContract X}

theorem Legible.entry {s : Core} (h : Legible keccak256 S s) {m : L1ToL2Message}
    (hm : m.words ∈ S) :
    s.storage.l1ToL2Messages (getL1ToL2MsgHash keccak256 m) = feePlusOne s.records m :=
  h.2.fees m hm

/-- **What the entry of a message says**, in every run: the fee plus one while
the message is pending, zero before it is sent and from the moment it is
consumed or cancelled, which happens once. The messages are numbered in the
order they are sent. -/
theorem l1ToL2Messages_run (hderived : derived.Documented keccak256)
    (hinj : Set.InjOn keccak256 S) (delay : U256) {as : List (Action X)}
    (hwords : Along (Core.step keccak256 derived) (HashesIn S) (.start delay) as) :
    let s := run (Core.step keccak256 derived) (.start delay) as
    (∀ m fee, (m, fee) ∈ sent s.records →
        s.storage.l1ToL2Messages (getL1ToL2MsgHash keccak256 m) = fee + 1
            ∧ settled s.records m = 0
          ∨ s.storage.l1ToL2Messages (getL1ToL2MsgHash keccak256 m) = 0
            ∧ settled s.records m = 1)
      ∧ (∀ m, m.words ∈ S → (∀ fee, (m, fee) ∉ sent s.records) →
          s.storage.l1ToL2Messages (getL1ToL2MsgHash keccak256 m) = 0
            ∧ settled s.records m = 0)
      ∧ (sent s.records).map (fun p => p.1.nonce.toNat)
          = (List.range (sent s.records).length).reverse := by
  intro s
  have h : Legible keccak256 S s := legible_run hderived hinj delay hwords
  refine ⟨fun m fee hmem => ?_, fun m hm hnever => ?_, h.1.nonces⟩
  · rw [h.entry (h.2.known _ hmem)]
    cases h.1.story m with
    | unsent never => exact absurd hmem (never fee)
    | pending fee' once _ entry count =>
        rw [entry, (once fee).mp hmem]
        exact .inl ⟨rfl, count⟩
    | gone fee' _ _ entry count =>
        rw [entry]
        exact .inr ⟨rfl, count⟩
  · rw [h.entry hm]
    cases h.1.story m with
    | unsent _ entry _ count => exact ⟨entry, count⟩
    | pending fee once => exact absurd ((once fee).mpr rfl) (hnever fee)
    | gone fee once => exact absurd ((once fee).mpr rfl) (hnever fee)

/-- One message cancelled, one consumed. -/
theorem l1ToL2Messages_run_sample :
    let s := run (Core.step sampleKeccak sampleDerived) (.start 50) sampleSettled
    s.storage.l1ToL2Messages (getL1ToL2MsgHash sampleKeccak sampleMessage) = 0
      ∧ s.storage.l1ToL2Messages (getL1ToL2MsgHash sampleKeccak sampleSecond) = 0
      ∧ (sent s.records).map (fun p => p.1.nonce.toNat) = [1, 0] := by
  intro s
  obtain ⟨hsent, -, hnonces⟩ :=
    l1ToL2Messages_run sampleDerived_documented sampleKeccak_injOn 50 along_sampleSettled
  have hcanceled : settled s.records sampleMessage = 1 := by decide
  have hconsumed : settled s.records sampleSecond = 1 := by decide
  refine ⟨?_, ?_, hnonces⟩
  · rcases hsent sampleMessage 10 (by decide) with ⟨-, hcount⟩ | ⟨hentry, -⟩
    · exact absurd (hcanceled.symm.trans hcount) Nat.one_ne_zero
    · exact hentry
  · rcases hsent sampleSecond 20 (by decide) with ⟨-, hcount⟩ | ⟨hentry, -⟩
    · exact absurd (hconsumed.symm.trans hcount) Nat.one_ne_zero
    · exact hentry

/-- **A new message has a new hash**: where a message is sent, nothing was
pending under its hash and no cancellation was ever asked for. -/
theorem sendMessageToL2_fresh (hderived : derived.Documented keccak256)
    (hinj : Set.InjOn keccak256 S) (delay : U256)
    {as : List (Action X)} {timestamp : U256} {msg : Msg} {toAddress selector : U256}
    {payload : List U256} {r : Receipt}
    (hwords : Along (Core.step keccak256 derived) (HashesIn S) (.start delay)
      (as ++ [.call timestamp (.sendMessageToL2 msg toAddress selector payload)]))
    (hexec : exec keccak256 (run (Core.step keccak256 derived) (.start delay) as).storage derived
      timestamp
      (.sendMessageToL2 msg toAddress selector payload) = .ok r) :
    let storage := (run (Core.step keccak256 derived) (.start delay) as).storage
    storage.l1ToL2Messages r.msgHash = 0
      ∧ storage.l1ToL2MessageCancellations r.msgHash = 0
      ∧ r.storage.l1ToL2Messages r.msgHash = msg.value + 1 := by
  intro storage
  obtain ⟨hbefore, hlast⟩ := (along_snoc _).mp hwords
  have h := legible_run hderived hinj delay hbefore
  obtain ⟨hallowed, -⟩ := exec_tracks hderived hinj h.2 hlast hexec
  obtain ⟨⟨r', nonce⟩, hsend, hr⟩ := Checked.bind_eq_ok.mp hexec
  obtain ⟨-, -, heq⟩ := sendMessageToL2_eq_ok.mp hsend
  obtain ⟨rfl, rfl⟩ := Prod.mk.inj heq
  obtain rfl := Except.ok.inj hr
  refine ⟨?_, ?_, Function.update_self ..⟩
  · show storage.l1ToL2Messages (getL1ToL2MsgHash keccak256 _) = 0
    rw [h.entry hlast]
    cases h.1.story _ with
    | unsent _ entry => exact entry
    | pending fee once =>
        exact absurd hallowed.2.1 (Nat.ne_of_lt (h.1.nonce_lt ((once fee).mpr rfl)))
    | gone fee once _ entry => exact entry
  · show storage.l1ToL2MessageCancellations (getL1ToL2MsgHash keccak256 _) = 0
    rw [h.2.requests _ hlast]
    cases h.1.story _ with
    | unsent _ _ request => exact request
    | pending fee once =>
        exact absurd hallowed.2.1 (Nat.ne_of_lt (h.1.nonce_lt ((once fee).mpr rfl)))
    | gone fee once =>
        exact absurd hallowed.2.1 (Nat.ne_of_lt (h.1.nonce_lt ((once fee).mpr rfl)))

theorem sendMessageToL2_fresh_sample :
    (Core.start 50).storage.l1ToL2Messages (getL1ToL2MsgHash sampleKeccak sampleMessage) = 0 := by
  have hwords : Along (Core.step sampleKeccak sampleDerived) (HashesIn sampleWords) (.start 50)
      ([] ++ [.call 100 (.sendMessageToL2 ⟨7, 10⟩ 3 handleReceiveRootSelector [5, 0])]) :=
    along_sampleSent
  exact (sendMessageToL2_fresh sampleDerived_documented sampleKeccak_injOn 50 hwords rfl).1

/-- **When a message can be cancelled**: exactly when the caller sent it, it
is still pending, and the caller's last request is not younger than the delay
in force now. A new request starts the delay again. -/
theorem cancelL1ToL2Message_iff (hderived : derived.Documented keccak256)
    (hinj : Set.InjOn keccak256 S) (delay : U256)
    {as : List (Action X)}
    (hwords : Along (Core.step keccak256 derived) (HashesIn S) (.start delay) as)
    (timestamp : U256) {m : L1ToL2Message} (hm : m.words ∈ S) :
    let s := run (Core.step keccak256 derived) (.start delay) as
    (∃ r, cancelL1ToL2Message keccak256 s.storage m.fromAddress timestamp m.toAddress
        m.selector m.payload m.nonce = .ok r)
      ↔ (∃ fee, (m, fee) ∈ sent s.records) ∧ settled s.records m = 0
        ∧ ∃ es₁ request es₂, s.records = es₁ ++ request :: es₂
          ∧ request.event = .messageToL2CancellationStarted m
          ∧ (∀ r ∈ es₁, r.event ≠ .messageToL2CancellationStarted m)
          ∧ request.timestamp ≠ 0
          ∧ request.timestamp.toNat + s.storage.messageCancellationDelay.toNat
            ≤ timestamp.toNat := by
  intro s
  have h : Legible keccak256 S s := legible_run hderived hinj delay hwords
  have hcode : (∃ r, cancelL1ToL2Message keccak256 s.storage m.fromAddress timestamp
      m.toAddress m.selector m.payload m.nonce = .ok r)
      ↔ feePlusOne s.records m ≠ 0 ∧ requestTime s.records m ≠ 0
        ∧ (requestTime s.records m).toNat + s.storage.messageCancellationDelay.toNat
          ≤ timestamp.toNat := by
    have hentry := h.entry hm
    have hrequest := h.2.requests m hm
    simp only [cancelL1ToL2Message_eq_ok, exists_and_left, exists_eq, and_true]
    rw [hentry, hrequest]
  have hpending : feePlusOne s.records m ≠ 0
      ↔ (∃ fee, (m, fee) ∈ sent s.records) ∧ settled s.records m = 0 := by
    cases h.1.story m with
    | unsent never entry =>
        exact iff_of_false (not_not_intro entry) fun hsent => hsent.1.elim never
    | pending fee once accepted entry count =>
        rw [entry]
        exact iff_of_true (fee_add_one_ne_zero accepted) ⟨⟨fee, (once fee).mpr rfl⟩, count⟩
    | gone fee once _ entry count =>
        refine iff_of_false (not_not_intro entry) fun hsent => ?_
        rw [count] at hsent
        exact Nat.one_ne_zero hsent.2
  rw [hcode, hpending, and_assoc]
  refine and_congr_right fun _ => and_congr_right fun _ => ?_
  constructor
  · intro h
    obtain ⟨hne, htime⟩ := h
    obtain ⟨es₁, request, es₂, hrs, hevent, hlast, heq⟩ := (requestTime_eq hne).mp rfl
    rw [← heq] at hne htime
    exact ⟨es₁, request, es₂, hrs, hevent, hlast, hne, htime⟩
  · intro h
    obtain ⟨es₁, request, es₂, hrs, hevent, hlast, hne, htime⟩ := h
    have heq := (requestTime_eq hne).mpr ⟨es₁, request, es₂, hrs, hevent, hlast, rfl⟩
    rw [heq]
    exact ⟨hne, htime⟩

theorem cancelL1ToL2Message_iff_sample :
    ∃ r, cancelL1ToL2Message sampleKeccak
      (run (Core.step sampleKeccak sampleDerived) (.start 50) sampleRequested).storage 7 151 3
      handleReceiveRootSelector [5, 0] 0 = .ok r := by
  have hwords : Along (Core.step sampleKeccak sampleDerived) (HashesIn sampleWords) (.start 50)
      sampleRequested := ⟨List.mem_cons_self, List.mem_cons_self, trivial⟩
  refine (cancelL1ToL2Message_iff sampleDerived_documented sampleKeccak_injOn 50 hwords 151
    (m := sampleMessage) List.mem_cons_self).mpr ?_
  refine ⟨⟨10, by decide⟩, by decide, [], ⟨101, 50, .messageToL2CancellationStarted sampleMessage⟩,
    [⟨100, 50, .logMessageToL2 sampleMessage 10⟩], rfl, rfl, ?_, by decide, by decide⟩
  intro r hr
  cases hr

/-! ## Who makes an event happen -/

/-- The event a call emits if it succeeds. -/
def Call.event (self : Storage) : Call X → Event
  | .sendMessageToL2 msg toAddress selector payload =>
      .logMessageToL2 ⟨msg.sender, toAddress, selector, payload, self.l1ToL2MessageNonce⟩
        msg.value
  | .consumeMessageFromL2 sender fromAddress payload =>
      .consumedMessageToL1 ⟨fromAddress, sender, payload⟩
  | .startL1ToL2MessageCancellation sender toAddress selector payload nonce =>
      .messageToL2CancellationStarted ⟨sender, toAddress, selector, payload, nonce⟩
  | .cancelL1ToL2Message sender toAddress selector payload nonce =>
      .messageToL2Canceled ⟨sender, toAddress, selector, payload, nonce⟩
  | .consumeMessageToL2 _ m => .consumedMessageToL2 m
  | .addMessageToL1 _ m => .logMessageToL1 m

theorem exec_event (hderived : derived.Documented keccak256) {self : Storage}
    {timestamp : U256} {call : Call X} {r : Receipt}
    (h : exec keccak256 self derived timestamp call = .ok r) : r.event = call.event self := by
  cases call with
  | sendMessageToL2 msg toAddress selector payload =>
      obtain ⟨⟨r', nonce⟩, hsend, hr⟩ := Checked.bind_eq_ok.mp h
      obtain ⟨-, -, heq⟩ := sendMessageToL2_eq_ok.mp hsend
      obtain ⟨rfl, rfl⟩ := Prod.mk.inj heq
      obtain rfl := Except.ok.inj hr
      rfl
  | consumeMessageFromL2 sender fromAddress payload =>
      rw [(consumeMessageFromL2_eq_ok.mp h).2]
      rfl
  | startL1ToL2MessageCancellation sender toAddress selector payload nonce =>
      rw [(startL1ToL2MessageCancellation_eq_ok.mp h).2]
      rfl
  | cancelL1ToL2Message sender toAddress selector payload nonce =>
      rw [(cancelL1ToL2Message_eq_ok.mp h).2.2.2]
      rfl
  | consumeMessageToL2 x m => exact (hderived.consumeMessageToL2 h).2.2
  | addMessageToL1 x m => exact (hderived.addMessageToL1 h).2.2

/-- The record is of a transaction of that block. -/
def EmittedBy (r : Record) (s : Core) (a : Action X) : Prop :=
  ∃ call, a = .call r.timestamp call ∧ r.event = call.event s.storage

/-- Every record of a run is of a transaction of the run. -/
theorem emitted_run (hderived : derived.Documented keccak256) (start : Core)
    (hstart : start.records = []) (as : List (Action X)) :
    ∀ r ∈ (run (Core.step keccak256 derived) start as).records,
      Earlier (Core.step keccak256 derived) (EmittedBy r) start as := by
  refine run_history_invariant _ (s := start) (P := fun _ _ => True)
    (I := fun as s => ∀ r ∈ s.records, Earlier (Core.step keccak256 derived) (EmittedBy r) start as)
    ?_ ?_ (along_true _ _ _)
  · rw [hstart]
    intro r hr
    cases hr
  · intro as a ih _ r hr
    cases a with
    | call timestamp call =>
        rw [Core.step] at hr
        cases hexec : exec keccak256 (run (Core.step keccak256 derived) start as).storage derived
            timestamp call with
        | error e =>
            rw [hexec] at hr
            exact (ih r hr).snoc _ _
        | ok receipt =>
            rw [hexec] at hr
            rcases List.mem_cons.mp hr with heq | hr
            · subst heq
              exact .last _ ⟨call, rfl, exec_event hderived hexec⟩
            · exact (ih r hr).snoc _ _
    | messageCancellationDelay delay => exact (ih r hr).snoc _ _

/-! ## Messages to L1 in a run -/

/-- How often a message to L1 was published. -/
def published (rs : List Record) (m : L2ToL1Message) : Nat :=
  rs.countP fun r => r.event = .logMessageToL1 m

/-- How often a message to L1 was consumed. -/
def consumed (rs : List Record) (m : L2ToL1Message) : Nat :=
  rs.countP fun r => r.event = .consumedMessageToL1 m

theorem published_cons (r : Record) (rs : List Record) (m : L2ToL1Message) :
    published (r :: rs) m = published rs m + if r.event = .logMessageToL1 m then 1 else 0 := by
  simp only [published, List.countP_cons, decide_eq_true_eq]

theorem consumed_cons (r : Record) (rs : List Record) (m : L2ToL1Message) :
    consumed (r :: rs) m = consumed rs m + if r.event = .consumedMessageToL1 m then 1 else 0 := by
  simp only [consumed, List.countP_cons, decide_eq_true_eq]

theorem Valid.balance {rs : List Record} (h : Valid rs) (m : L2ToL1Message) :
    (balance rs m).toNat + consumed rs m = published rs m := by
  induction rs with
  | nil => rfl
  | cons r rs ih =>
      obtain ⟨hallowed, hvalid⟩ := h
      have ih := ih hvalid
      obtain ⟨timestamp, delay, event⟩ := r
      rw [published_cons, consumed_cons]
      cases event with
      | logMessageToL1 m' =>
          rw [if_neg (by simp)]
          by_cases hm : m = m'
          · subst hm
            have hbal : Hashed.balance (⟨timestamp, delay, .logMessageToL1 m⟩ :: rs) m
                = Hashed.balance rs m + 1 := Function.update_self ..
            have hadd := toNat_add (a := Hashed.balance rs m) (b := 1) hallowed
            have hone : (1 : U256).toNat = 1 := rfl
            rw [hbal, hadd, hone, if_pos rfl]
            omega
          · have hbal : Hashed.balance (⟨timestamp, delay, .logMessageToL1 m'⟩ :: rs) m
                = Hashed.balance rs m := Function.update_of_ne hm ..
            rw [hbal, if_neg (by simp [Ne.symm hm])]
            exact ih
      | consumedMessageToL1 m' =>
          by_cases hm : m = m'
          · subst hm
            have hbal : Hashed.balance (⟨timestamp, delay, .consumedMessageToL1 m⟩ :: rs) m
                = Hashed.balance rs m - 1 := Function.update_self ..
            have hpos : 0 < (Hashed.balance rs m).toNat :=
              BitVec.lt_def.mp (pos_iff_ne_zero.mpr hallowed)
            have hsub : (Hashed.balance rs m - 1).toNat = (Hashed.balance rs m).toNat - 1 :=
              BitVec.toNat_sub_of_le (BitVec.le_def.mpr hpos)
            rw [hbal, hsub, if_pos rfl, if_neg (by simp)]
            omega
          · have hbal : Hashed.balance (⟨timestamp, delay, .consumedMessageToL1 m'⟩ :: rs) m
                = Hashed.balance rs m := Function.update_of_ne hm ..
            rw [hbal, if_neg (by simp [Ne.symm hm]), if_neg (by simp)]
            exact ih
      | logMessageToL2 m' fee => exact ih
      | messageToL2CancellationStarted m' => exact ih
      | messageToL2Canceled m' => exact ih
      | consumedMessageToL2 m' => exact ih

/-- **No message to L1 is made up or taken by another**: what is left of it
and what was consumed make what was published, and each consumption was a
transaction of the recipient. -/
theorem l2ToL1Messages_run (hderived : derived.Documented keccak256)
    (hinj : Set.InjOn keccak256 S) (delay : U256) {as : List (Action X)}
    (hwords : Along (Core.step keccak256 derived) (HashesIn S) (.start delay) as)
    {m : L2ToL1Message} (hm : m.words ∈ S) :
    let s := run (Core.step keccak256 derived) (.start delay) as
    (s.storage.l2ToL1Messages (l2ToL1MsgHash keccak256 m)).toNat + consumed s.records m
        = published s.records m
      ∧ ∀ r ∈ s.records, r.event = .consumedMessageToL1 m →
          Earlier (Core.step keccak256 derived)
            (fun _ a => a = .call r.timestamp
              (.consumeMessageFromL2 m.toAddress m.fromAddress m.payload))
            (.start delay) as := by
  intro s
  have h : Legible keccak256 S s := legible_run hderived hinj delay hwords
  refine ⟨?_, fun r hr hevent => ?_⟩
  · rw [h.2.balances m hm]
    exact h.1.balance m
  · obtain ⟨as₁, a, as₂, has, call, ha, hcall⟩ := emitted_run hderived (.start delay) rfl as r hr
    refine ⟨as₁, a, as₂, has, ?_⟩
    rw [hevent] at hcall
    cases call with
    | consumeMessageFromL2 sender fromAddress payload =>
        obtain rfl := Event.consumedMessageToL1.inj hcall
        exact ha
    | _ => cases hcall

theorem l2ToL1Messages_run_sample :
    ((run (Core.step sampleKeccak sampleDerived) (.start 50) sampleConsumed).storage.l2ToL1Messages
      (l2ToL1MsgHash sampleKeccak sampleMessageToL1)).toNat + 1 = 1 := by
  have hwords : Along (Core.step sampleKeccak sampleDerived) (HashesIn sampleWords) (.start 50)
      sampleConsumed := by
    refine ⟨?_, ?_, trivial⟩ <;> show _ ∈ [_, _, _] <;> decide
  exact (l2ToL1Messages_run sampleDerived_documented sampleKeccak_injOn 50 hwords
    (m := sampleMessageToL1) (by show _ ∈ [_, _, _]; decide)).1

end Runs

end WorldIDBridge.L1.StarknetMessaging.Hashed
