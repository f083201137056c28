import Mathlib.Logic.Relation
import WorldIDBridge.L1.MessageLifecycle
import WorldIDBridge.L1.StarkStateBridge
import WorldIDBridge.Lib.AtMostOnce

/-!
# The pipe to L2 is an at-most-once channel

The messages the contract logged and the nonces the derived contract consumed
make a channel: no position is consumed twice, and none that was not sent.
What is in flight on the channel and not cancelled is what the contract's
table has. An account that never asks for a cancellation, as the bridge, which
only sends, has all its messages consumed or still pending.

The form of `sendMessageToL2` in which a message is its own hash, which the
other modules use, is this one seen through the hashes.
-/

namespace WorldIDBridge.L1.StarknetMessaging.Hashed

open TransitionRun

/-- What the sequencer sees of a message. -/
def logOf (p : L1ToL2Message × U256) : LogMessageToL2 :=
  ⟨p.1.fromAddress, p.1.toAddress, p.1.selector, p.1.payload, p.1.nonce.toNat, p.2⟩

/-- The messages logged, in the order they were sent. -/
def logs (rs : List Record) : List LogMessageToL2 := ((sent rs).map logOf).reverse

/-! ## Messages as their own hashes -/

/-- The key of a message where the message is its own hash. -/
def keyOf (m : L1ToL2Message) : StarknetMessaging.MsgHash :=
  ⟨m.fromAddress, m.toAddress, m.nonce.toNat, m.selector, m.payload⟩

theorem keyOf_injective : Function.Injective keyOf := by
  intro m m' h
  obtain ⟨sender, toAddr, sel, payload, nonce⟩ := m
  obtain ⟨sender', toAddr', sel', payload', nonce'⟩ := m'
  simp only [keyOf, StarknetMessaging.MsgHash.mk.injEq] at h
  obtain ⟨rfl, rfl, hnonce, rfl, rfl⟩ := h
  rw [BitVec.eq_of_toNat_eq hnonce]

/-- The storage holds, under hashes, what the ideal one holds. -/
structure Represents (keccak256 : Keccak) (S : Set (List U256)) (storage : Storage)
    (ideal : StarknetMessaging.Storage) : Prop where
  nonce : storage.l1ToL2MessageNonce.toNat = ideal.l1ToL2MessageNonce
  fees : HashedTable.Holds (getL1ToL2MsgHash keccak256) (Set.preimage L1ToL2Message.words S)
    storage.l1ToL2Messages fun m => ideal.l1ToL2Messages (keyOf m)

/-- **The two forms of `sendMessageToL2` agree** while the nonce does not run
out: they accept the same calls, log the same message, and leave storages that
represent each other. -/
theorem sendMessageToL2_represents {keccak256 : Keccak} {S : Set (List U256)}
    (hinj : Set.InjOn keccak256 S) {self : Storage} {ideal : StarknetMessaging.Storage}
    (h : Represents keccak256 S self ideal) (hnonce : self.l1ToL2MessageNonce.toNat + 1 < 2 ^ 256)
    {msg : Msg} {toAddress selector : U256} {payload : List U256}
    (hwords : L1ToL2Message.words
      ⟨msg.sender, toAddress, selector, payload, self.l1ToL2MessageNonce⟩ ∈ S) :
    ((∃ r, sendMessageToL2 keccak256 self msg toAddress selector payload = .ok r)
        ↔ ∃ r, StarknetMessaging.sendMessageToL2 ideal msg toAddress selector payload = .ok r)
      ∧ ∀ receipt nonce ideal' log,
        sendMessageToL2 keccak256 self msg toAddress selector payload = .ok (receipt, nonce) →
        StarknetMessaging.sendMessageToL2 ideal msg toAddress selector payload
            = .ok (ideal', log) →
          (∃ m, receipt.event = .logMessageToL2 m log.fee ∧ logOf (m, log.fee) = log)
            ∧ Represents keccak256 S receipt.storage ideal' := by
  refine ⟨?_, fun receipt nonce ideal' log hreceipt hideal => ?_⟩
  · simp only [sendMessageToL2_eq_ok, StarknetMessaging.sendMessageToL2_eq_ok, exists_and_left,
      exists_eq, and_true, Prod.exists, exists_eq_left]
    exact ⟨And.left, fun hfee => ⟨hfee, hnonce⟩⟩
  · obtain ⟨-, -, heq⟩ := sendMessageToL2_eq_ok.mp hreceipt
    obtain ⟨rfl, -⟩ := Prod.mk.inj heq
    obtain ⟨-, hlog, hstorage⟩ := StarknetMessaging.sendMessageToL2_eq_ok.mp hideal
    dsimp only at hlog hstorage
    subst hlog hstorage
    refine ⟨⟨_, rfl, ?_⟩, ?_, ?_⟩
    · rw [logOf, h.nonce]
    · show (self.l1ToL2MessageNonce + 1).toNat = ideal.l1ToL2MessageNonce + 1
      rw [toNat_add hnonce, h.nonce]
      rfl
    · -- the write at the new key is the write at the new hash
      have hwrite := h.fees.update (injOn_l1ToL2 hinj) hwords (msg.value + 1)
      have hkey : keyOf ⟨msg.sender, toAddress, selector, payload, self.l1ToL2MessageNonce⟩
          = ⟨msg.sender, toAddress, ideal.l1ToL2MessageNonce, selector, payload⟩ := by
        rw [keyOf, h.nonce]
      intro m hm
      refine (hwrite m hm).trans ?_
      by_cases hm : m = ⟨msg.sender, toAddress, selector, payload, self.l1ToL2MessageNonce⟩
      · subst hm
        exact (Function.update_self ..).trans (if_pos hkey).symm
      · rw [Function.update_of_ne hm]
        exact (if_neg fun heq => hm (keyOf_injective (heq.trans hkey.symm))).symm

/-! ## Deliveries -/

def Record.consumed? (r : Record) : Option L1ToL2Message :=
  match r.event with
  | .consumedMessageToL2 m => some m
  | _ => none

theorem Record.consumed?_eq_some {r : Record} {m : L1ToL2Message} :
    r.consumed? = some m ↔ r.event = .consumedMessageToL2 m := by
  rw [Record.consumed?]
  cases hevent : r.event with
  | consumedMessageToL2 m' => simp
  | _ => simp

/-- The nonces of the messages consumed, newest first. -/
def deliveries (rs : List Record) : List Nat :=
  (rs.filterMap Record.consumed?).map fun m => m.nonce.toNat

theorem length_logs (rs : List Record) : (logs rs).length = (sent rs).length := by
  rw [logs, List.length_reverse, List.length_map]

/-! ## Valid histories -/

/-- The nonce of a message determines it. -/
theorem Valid.nonce_inj {rs : List Record} (h : Valid rs) {p q : L1ToL2Message × U256}
    (hp : p ∈ sent rs) (hq : q ∈ sent rs) (hnonce : p.1.nonce.toNat = q.1.nonce.toNat) :
    p = q := by
  have hnodup : ((sent rs).map fun p => p.1.nonce.toNat).Nodup := by
    rw [h.nonces]
    exact List.nodup_reverse.mpr List.nodup_range
  exact List.inj_on_of_nodup_map hnodup hp hq hnonce

/-- The log at the position of its nonce. -/
theorem Valid.logs_getElem? {rs : List Record} (h : Valid rs) {p : L1ToL2Message × U256}
    (hp : p ∈ sent rs) : (logs rs)[p.1.nonce.toNat]? = some (logOf p) := by
  obtain ⟨i, hi, heq⟩ := List.getElem_of_mem (List.mem_reverse.mpr hp)
  have hi' : i < (sent rs).length := by rwa [List.length_reverse] at hi
  have hnonce : ((sent rs).reverse.map fun p => p.1.nonce.toNat)[i]? = some i := by
    rw [List.map_reverse, h.nonces, List.reverse_reverse, List.getElem?_range hi']
  rw [List.getElem?_map, List.getElem?_eq_getElem hi, heq, Option.map_some,
    Option.some.injEq] at hnonce
  rw [hnonce, logs, ← List.map_reverse, List.getElem?_map, List.getElem?_eq_getElem hi, heq]
  rfl

theorem mem_consumed {rs : List Record} {m : L1ToL2Message} :
    m ∈ rs.filterMap Record.consumed? ↔ ∃ r ∈ rs, r.event = .consumedMessageToL2 m := by
  simp only [List.mem_filterMap, Record.consumed?_eq_some]

/-- A message consumed was sent and is pending no more. -/
theorem Valid.of_consumed {rs : List Record} (h : Valid rs) {m : L1ToL2Message}
    (hm : m ∈ rs.filterMap Record.consumed?) :
    (∃ fee, (m, fee) ∈ sent rs) ∧ feePlusOne rs m = 0 := by
  obtain ⟨r, hr, hevent⟩ := mem_consumed.mp hm
  have hcount : settled rs m ≠ 0 := fun hzero => (settled_eq_zero.mp hzero r hr).2 hevent
  cases h.story m with
  | unsent _ _ _ count => exact absurd count hcount
  | pending _ _ _ _ count => exact absurd count hcount
  | gone fee once _ entry => exact ⟨⟨fee, (once fee).mpr rfl⟩, entry⟩

theorem Valid.delivery_lt {rs : List Record} (h : Valid rs) :
    ∀ i ∈ deliveries rs, i < (logs rs).length := by
  intro i hi
  obtain ⟨m, hm, rfl⟩ := List.mem_map.mp hi
  obtain ⟨⟨fee, hsent⟩, -⟩ := h.of_consumed hm
  rw [length_logs]
  exact h.nonce_lt hsent

/-- The position of a pending message was not delivered. -/
theorem Valid.not_mem_deliveries {rs : List Record} (h : Valid rs) {m : L1ToL2Message}
    (hpending : feePlusOne rs m ≠ 0) : m.nonce.toNat ∉ deliveries rs := by
  intro hmem
  obtain ⟨m', hm', hnonce⟩ := List.mem_map.mp hmem
  obtain ⟨⟨fee', hsent'⟩, hzero⟩ := h.of_consumed hm'
  obtain ⟨fee, once, -⟩ := (h.story m).of_entry hpending
  have heq : (m', fee') = (m, fee) := h.nonce_inj hsent' ((once fee).mpr rfl) hnonce
  rw [(Prod.mk.inj heq).1] at hzero
  exact hpending hzero

theorem Valid.deliveries_nodup {rs : List Record} (h : Valid rs) : (deliveries rs).Nodup := by
  induction rs with
  | nil => exact List.nodup_nil
  | cons r rs ih =>
      obtain ⟨hallowed, hvalid⟩ := h
      cases hr : r.consumed? with
      | none =>
          rw [deliveries, List.filterMap_cons_none hr]
          exact ih hvalid
      | some m =>
          rw [Allowed, Record.consumed?_eq_some.mp hr] at hallowed
          rw [deliveries, List.filterMap_cons_some hr, List.map_cons]
          exact List.nodup_cons.mpr ⟨hvalid.not_mem_deliveries hallowed, ih hvalid⟩

/-- The channel of a valid history. -/
def channel (rs : List Record) (h : Valid rs) : Channel LogMessageToL2 :=
  ⟨logs rs, deliveries rs, h.delivery_lt, h.deliveries_nodup⟩

/-! ## The contract as a channel -/

/-- What an event does to the channel: it sends the next message, delivers
one that is in flight, or does nothing. -/
theorem channel_cons {r : Record} {rs : List Record} (h : Valid (r :: rs)) :
    channel (r :: rs) h = channel rs h.2 ∨ (channel rs h.2).Step (channel (r :: rs) h) := by
  obtain ⟨hallowed, hvalid⟩ := h
  obtain ⟨timestamp, delay, event⟩ := r
  cases event with
  | logMessageToL2 m fee =>
      refine .inr ?_
      have hsend : channel (⟨timestamp, delay, .logMessageToL2 m fee⟩ :: rs) ⟨hallowed, hvalid⟩
          = (channel rs hvalid).send [logOf (m, fee)] :=
        Channel.eq_of_lists List.reverse_cons rfl
      rw [hsend]
      exact .send ..
  | consumedMessageToL2 m =>
      refine .inr ?_
      obtain ⟨fee, once, -⟩ := (hvalid.story m).of_entry hallowed
      have hflight : (channel rs hvalid).InFlight m.nonce.toNat := by
        refine ⟨?_, hvalid.not_mem_deliveries hallowed⟩
        show m.nonce.toNat < (logs rs).length
        rw [length_logs]
        exact hvalid.nonce_lt ((once fee).mpr rfl)
      exact .deliver (channel rs hvalid) m.nonce.toNat hflight
  | messageToL2CancellationStarted m => exact .inl rfl
  | messageToL2Canceled m => exact .inl rfl
  | consumedMessageToL1 m => exact .inl rfl
  | logMessageToL1 m => exact .inl rfl

/-- A valid history is a run of the channel. -/
theorem channel_run {rs : List Record} (h : Valid rs) :
    Relation.ReflTransGen Channel.Step .empty (channel rs h) := by
  induction rs with
  | nil => exact .refl
  | cons r rs ih =>
      cases channel_cons h with
      | inl hsame =>
          rw [hsame]
          exact ih h.2
      | inr hstep => exact (ih h.2).tail hstep

/-- A message has an entry while it is in flight and was not cancelled. -/
theorem Valid.entry_ne_zero_iff {rs : List Record} (h : Valid rs) {p : L1ToL2Message × U256}
    (hp : p ∈ sent rs) :
    feePlusOne rs p.1 ≠ 0
      ↔ (channel rs h).InFlight p.1.nonce.toNat
        ∧ ∀ r ∈ rs, r.event ≠ .messageToL2Canceled p.1 := by
  obtain ⟨m, fee⟩ := p
  constructor
  · intro hpending
    obtain ⟨fee', once, -, -, count⟩ := (h.story m).of_entry hpending
    refine ⟨⟨?_, h.not_mem_deliveries hpending⟩, ?_⟩
    · show m.nonce.toNat < (logs rs).length
      rw [length_logs]
      exact h.nonce_lt hp
    · exact fun r hr => (settled_eq_zero.mp count r hr).1
  · intro hflight hzero
    obtain ⟨⟨-, hdelivered⟩, hcanceled⟩ := hflight
    -- neither cancelled nor consumed
    have hcount : settled rs m = 0 := by
      refine settled_eq_zero.mpr fun r hr => ⟨hcanceled r hr, fun hevent => ?_⟩
      exact hdelivered (List.mem_map_of_mem (f := fun m : L1ToL2Message => m.nonce.toNat)
        (mem_consumed.mpr ⟨r, hr, hevent⟩))
    cases h.story m with
    | unsent never => exact never fee hp
    | pending fee' once accepted entry =>
        rw [entry] at hzero
        exact fee_add_one_ne_zero accepted hzero
    | gone _ _ _ _ count =>
        rw [hcount] at count
        cases count

section Runs

variable {keccak256 : Keccak} {S : Set (List U256)} {X : Type} {derived : DerivedContract X}

/-- **The contract is an at-most-once channel**: every run of it is a run of
the channel of the messages it logged, each at the position of its nonce, and
its table has what is in flight and was not cancelled. -/
theorem core_refines_channel (hderived : derived.Documented keccak256)
    (hinj : Set.InjOn keccak256 S) (delay : U256) {as : List (Action X)}
    (hwords : Along (Core.step keccak256 derived) (HashesIn S) (.start delay) as) :
    let s := run (Core.step keccak256 derived) (.start delay) as
    ∃ ch : Channel LogMessageToL2, Relation.ReflTransGen Channel.Step .empty ch
      ∧ ch.sent.length = (sent s.records).length
      ∧ ∀ p ∈ sent s.records, ch.sent[p.1.nonce.toNat]? = some (logOf p)
        ∧ (p.1.nonce.toNat ∈ ch.delivered
            ↔ ∃ r ∈ s.records, r.event = .consumedMessageToL2 p.1)
        ∧ (s.storage.l1ToL2Messages (getL1ToL2MsgHash keccak256 p.1) ≠ 0
            ↔ ch.InFlight p.1.nonce.toNat
              ∧ ∀ r ∈ s.records, r.event ≠ .messageToL2Canceled p.1) := by
  intro s
  have h : Legible keccak256 S s := legible_run hderived hinj delay hwords
  refine ⟨channel s.records h.1, channel_run h.1, length_logs _, fun p hp => ⟨?_, ?_, ?_⟩⟩
  · exact h.1.logs_getElem? hp
  · constructor
    · intro hmem
      obtain ⟨m, hm, hnonce⟩ := List.mem_map.mp hmem
      obtain ⟨⟨fee, hsent⟩, -⟩ := h.1.of_consumed hm
      have heq : (m, fee) = p := h.1.nonce_inj hsent hp hnonce
      rw [← heq]
      exact mem_consumed.mp hm
    · intro hconsumed
      exact List.mem_map_of_mem (f := fun m : L1ToL2Message => m.nonce.toNat)
        (mem_consumed.mpr hconsumed)
  · rw [h.entry (h.2.known p hp)]
    exact h.1.entry_ne_zero_iff hp

/-- Of two messages the first is cancelled and the second delivered. -/
theorem core_refines_channel_sample :
    ∃ ch : Channel LogMessageToL2, Relation.ReflTransGen Channel.Step .empty ch
      ∧ ch.sent.length = 2 ∧ ch.InFlight 0 ∧ 1 ∈ ch.delivered := by
  obtain ⟨ch, hrun, hlength, hch⟩ :=
    core_refines_channel sampleDerived_documented sampleKeccak_injOn 50 along_sampleSettled
  obtain ⟨-, hfirst, -⟩ := hch (sampleMessage, 10) (by decide)
  obtain ⟨-, hsecond, -⟩ := hch (sampleSecond, 20) (by decide)
  have hlength : ch.sent.length = 2 := hlength
  refine ⟨ch, hrun, hlength, ⟨by rw [hlength]; decide, ?_⟩, hsecond.mpr (by decide)⟩
  intro hdelivered
  exact absurd (hfirst.mp hdelivered) (by decide)

/-! ## The messages of the bridge -/

/-- The account that makes a call; none for those of the derived contract. -/
def Call.sender? {X : Type} : Call X → Option EthAddress
  | .sendMessageToL2 msg _ _ _ => some msg.sender
  | .consumeMessageFromL2 sender _ _ => some sender
  | .startL1ToL2MessageCancellation sender _ _ _ _ => some sender
  | .cancelL1ToL2Message sender _ _ _ _ => some sender
  | .consumeMessageToL2 .. => none
  | .addMessageToL1 .. => none

/-- What the bridge's code asks of the contract: the request of one of its
functions, with the value of the call. -/
def BridgeRequest {X : Type} (bridge : EthAddress) (call : Call X) : Prop :=
  ∃ self w value bridgeCall selector payload,
    StarkStateBridge.request self w bridgeCall = some (selector, payload)
      ∧ call = .sendMessageToL2 ⟨bridge, value⟩ self.starkWorldIDAddress selector payload

/-- A transaction of the account `bridge` is one its code makes. -/
def RunsBridge {X : Type} (bridge : EthAddress) : Action X → Prop
  | .call _ call => call.sender? = some bridge → BridgeRequest bridge call
  | .messageCancellationDelay _ => True

theorem request_selector {self : StarkStateBridge.Storage} {w : World} {call : BridgeCall}
    {selector : U256} {payload : List U256}
    (h : StarkStateBridge.request self w call = some (selector, payload)) :
    selector = handleReceiveRootSelector ∨ selector = handleSetRootHistoryExpirySelector
      ∨ selector = handleChangeL1StateBridgeAddressSelector := by
  cases call with
  | propagateRoot =>
      obtain ⟨root, -, heq⟩ := Option.map_eq_some_iff.mp h
      exact .inl (Prod.mk.inj heq).1.symm
  | setRootHistoryExpiry e => exact .inr (.inl (Prod.mk.inj (Option.some.inj h)).1.symm)
  | changeL1StateBridgeAddress a => exact .inr (.inr (Prod.mk.inj (Option.some.inj h)).1.symm)
  | _ => cases h

/-- The record of a call of the bridge's account, in a run in which the
account runs the bridge. -/
theorem bridge_record (hderived : derived.Documented keccak256) {start : Core}
    (hstart : start.records = []) {as : List (Action X)} {bridge : EthAddress}
    (hbridge : ∀ a ∈ as, RunsBridge bridge a) {r : Record}
    (hr : r ∈ (run (Core.step keccak256 derived) start as).records) {m : L1ToL2Message}
    (hm : r.message? = some m) (hfrom : m.fromAddress = bridge)
    (hconsumed : r.event ≠ .consumedMessageToL2 m) :
    (∃ fee, r.event = .logMessageToL2 m fee)
      ∧ (m.selector = handleReceiveRootSelector
        ∨ m.selector = handleSetRootHistoryExpirySelector
        ∨ m.selector = handleChangeL1StateBridgeAddressSelector) := by
  obtain ⟨as₁, a, as₂, has, call, ha, hcall⟩ := emitted_run hderived start hstart as r hr
  have hruns : RunsBridge bridge a := hbridge a (by simp [has])
  rw [ha] at hruns
  have hsender : call.sender? = some bridge := by
    rw [Record.message?, hcall] at hm
    rw [hcall] at hconsumed
    cases call with
    | sendMessageToL2 msg toAddress selector payload =>
        obtain rfl := Option.some.inj hm
        exact congrArg some hfrom
    | consumeMessageFromL2 sender fromAddress payload => cases hm
    | startL1ToL2MessageCancellation sender toAddress selector payload nonce =>
        obtain rfl := Option.some.inj hm
        exact congrArg some hfrom
    | cancelL1ToL2Message sender toAddress selector payload nonce =>
        obtain rfl := Option.some.inj hm
        exact congrArg some hfrom
    | consumeMessageToL2 x m' =>
        obtain rfl := Option.some.inj hm
        exact absurd rfl hconsumed
    | addMessageToL1 x m' => cases hm
  obtain ⟨self, w, value, bridgeCall, selector, payload, hreq, rfl⟩ := hruns hsender
  rw [Record.message?, hcall] at hm
  obtain rfl := Option.some.inj hm
  exact ⟨⟨value, hcall⟩, request_selector hreq⟩

/-- **A message of the bridge is never taken back**: the bridge has no
function that asks for a cancellation, and no other account can. Each of its
messages is for one of the three handlers, and pending until it is consumed. -/
theorem bridge_messages_run (hderived : derived.Documented keccak256)
    (hinj : Set.InjOn keccak256 S) (delay : U256) {as : List (Action X)}
    (hwords : Along (Core.step keccak256 derived) (HashesIn S) (.start delay) as)
    {bridge : EthAddress} (hbridge : ∀ a ∈ as, RunsBridge bridge a) :
    let s := run (Core.step keccak256 derived) (.start delay) as
    ∀ m fee, (m, fee) ∈ sent s.records → m.fromAddress = bridge →
      (m.selector = handleReceiveRootSelector
          ∨ m.selector = handleSetRootHistoryExpirySelector
          ∨ m.selector = handleChangeL1StateBridgeAddressSelector)
        ∧ (∀ r ∈ s.records, r.event ≠ .messageToL2CancellationStarted m
            ∧ r.event ≠ .messageToL2Canceled m)
        ∧ (s.storage.l1ToL2Messages (getL1ToL2MsgHash keccak256 m) = fee + 1
            ↔ ∀ r ∈ s.records, r.event ≠ .consumedMessageToL2 m) := by
  intro s m fee hsent hfrom
  have h : Legible keccak256 S s := legible_run hderived hinj delay hwords
  obtain ⟨sending, hsending, hlog⟩ := List.mem_filterMap.mp hsent
  have hlogged := Record.sent?_eq_some.mp hlog
  have hselector := (bridge_record hderived rfl hbridge hsending (by rw [Record.message?, hlogged])
    hfrom (by rw [hlogged]; simp)).2
  have hnever : ∀ r ∈ s.records, r.event ≠ .messageToL2CancellationStarted m
      ∧ r.event ≠ .messageToL2Canceled m := by
    intro r hr
    constructor
    · intro hevent
      obtain ⟨⟨fee', hlog'⟩, -⟩ := bridge_record hderived rfl hbridge hr
        (by rw [Record.message?, hevent]) hfrom (by rw [hevent]; simp)
      rw [hevent] at hlog'
      cases hlog'
    · intro hevent
      obtain ⟨⟨fee', hlog'⟩, -⟩ := bridge_record hderived rfl hbridge hr
        (by rw [Record.message?, hevent]) hfrom (by rw [hevent]; simp)
      rw [hevent] at hlog'
      cases hlog'
  refine ⟨hselector, hnever, ?_⟩
  rw [h.entry (h.2.known _ hsent)]
  cases h.1.story m with
  | unsent never => exact absurd hsent (never fee)
  | pending fee' once accepted entry count =>
      obtain rfl := (once fee).mp hsent
      exact iff_of_true entry fun r hr => (settled_eq_zero.mp count r hr).2
  | gone fee' once accepted entry count =>
      obtain rfl := (once fee).mp hsent
      rw [entry]
      refine iff_of_false (fun hzero => fee_add_one_ne_zero accepted hzero.symm) fun hall => ?_
      have hzero := settled_eq_zero.mpr fun r hr => ⟨(hnever r hr).2, hall r hr⟩
      rw [hzero] at count
      cases count

theorem bridge_messages_run_sample :
    (run (Core.step sampleKeccak sampleDerived) (.start 50) sampleSent).storage.l1ToL2Messages
      (getL1ToL2MsgHash sampleKeccak sampleMessage) = 10 + 1 := by
  have hbridge : ∀ a ∈ sampleSent, RunsBridge 7 a := by
    intro a ha
    obtain rfl := List.mem_singleton.mp ha
    intro _
    exact ⟨⟨1, 3, 8, 5, 100, 100, 100⟩, ⟨5, ⟨0, fun _ => 0⟩, fun _ => some 5, fun _ => false⟩, 10,
      .propagateRoot, _, _, rfl, rfl⟩
  refine (bridge_messages_run sampleDerived_documented sampleKeccak_injOn 50 along_sampleSent
    hbridge sampleMessage 10 List.mem_cons_self rfl).2.2.mpr ?_
  intro r hr
  obtain rfl := List.mem_singleton.mp hr
  decide

end Runs

end WorldIDBridge.L1.StarknetMessaging.Hashed
