import Mathlib.Data.List.Basic
import Mathlib.Data.List.Nodup

/-!
# A channel that delivers at most once

Messages are sent in order and delivered in any order, each at most once,
possibly never. The channel records the messages ever sent and the
positions delivered, newest first; that no position is delivered twice, and
none that was not sent, are fields of the channel.
-/

structure Channel (μ : Type*) where
  sent : List μ
  delivered : List Nat
  bound : ∀ i ∈ delivered, i < sent.length
  once : delivered.Nodup

namespace Channel

variable {μ : Type*}

def empty : Channel μ := ⟨[], [], by simp, by simp⟩

/-- The channel after `ms` are sent, in order. -/
def send (ch : Channel μ) (ms : List μ) : Channel μ :=
  ⟨ch.sent ++ ms, ch.delivered, fun i hi => by
    rw [List.length_append]; exact Nat.lt_add_right _ (ch.bound i hi), ch.once⟩

/-- The message at position `i` was sent and not delivered. -/
def InFlight (ch : Channel μ) (i : Nat) : Prop :=
  i < ch.sent.length ∧ i ∉ ch.delivered

instance (ch : Channel μ) (i : Nat) : Decidable (ch.InFlight i) :=
  inferInstanceAs (Decidable (_ ∧ _))

/-- The channel after the message at `i` is taken off it. -/
def deliver (ch : Channel μ) (i : Nat) (h : ch.InFlight i) : Channel μ :=
  ⟨ch.sent, i :: ch.delivered, fun j hj => by
    rcases List.mem_cons.mp hj with rfl | hj
    · exact h.1
    · exact ch.bound j hj,
    List.nodup_cons.mpr ⟨h.2, ch.once⟩⟩

@[simp] theorem sent_empty : (empty : Channel μ).sent = [] := rfl
@[simp] theorem delivered_empty : (empty : Channel μ).delivered = [] := rfl
@[simp] theorem sent_send (ch : Channel μ) (ms : List μ) :
    (ch.send ms).sent = ch.sent ++ ms := rfl
@[simp] theorem delivered_send (ch : Channel μ) (ms : List μ) :
    (ch.send ms).delivered = ch.delivered := rfl
@[simp] theorem sent_deliver (ch : Channel μ) (i : Nat) (h : ch.InFlight i) :
    (ch.deliver i h).sent = ch.sent := rfl
@[simp] theorem delivered_deliver (ch : Channel μ) (i : Nat) (h : ch.InFlight i) :
    (ch.deliver i h).delivered = i :: ch.delivered := rfl

/-- A channel is what was sent on it and what was delivered. -/
theorem eq_of_lists {ch ch' : Channel μ} (hsent : ch.sent = ch'.sent)
    (hdelivered : ch.delivered = ch'.delivered) : ch = ch' := by
  obtain ⟨sent, delivered, bound, once⟩ := ch
  obtain ⟨sent', delivered', bound', once'⟩ := ch'
  simp only at hsent hdelivered
  subst hsent hdelivered
  rfl

/-- One message sent, or one delivered. -/
inductive Step : Channel μ → Channel μ → Prop where
  | send (ch : Channel μ) (m : μ) : Step ch (ch.send [m])
  | deliver (ch : Channel μ) (i : Nat) (h : ch.InFlight i) : Step ch (ch.deliver i h)

/-- A message just sent is in flight. -/
theorem inFlight_send (ch : Channel μ) (m : μ) : (ch.send [m]).InFlight ch.sent.length :=
  ⟨by simp, fun h => Nat.lt_irrefl _ (ch.bound _ h)⟩

/-! ## Later channels -/

/-- `ch'` is `ch` after more messages were sent and delivered. -/
structure Extends (ch ch' : Channel μ) : Prop where
  sent : ch.sent <+: ch'.sent
  delivered : ch.delivered <:+ ch'.delivered

theorem Extends.refl (ch : Channel μ) : Extends ch ch :=
  ⟨List.prefix_refl _, List.suffix_refl _⟩

theorem Extends.trans {ch ch' ch'' : Channel μ} (h : Extends ch ch')
    (h' : Extends ch' ch'') : Extends ch ch'' :=
  ⟨h.sent.trans h'.sent, List.IsSuffix.trans h.delivered h'.delivered⟩

/-- A position keeps its message. -/
theorem Extends.getElem? {ch ch' : Channel μ} (h : Extends ch ch') {i : Nat}
    (hi : i < ch.sent.length) : ch'.sent[i]? = ch.sent[i]? := by
  obtain ⟨more, hmore⟩ := h.sent
  rw [← hmore, List.getElem?_append_left hi]

/-! ## Arrivals

A reader of the channel looks at some positions only, those `f` reads a
value at. -/

section Arrivals

variable {β : Type*} (f : Nat → Option β)

/-- The positions read so far, newest first. -/
def arrivals (ch : Channel μ) : List Nat := ch.delivered.filter fun i => (f i).isSome

/-- The positions were read in the order they were sent. -/
def InOrder (ch : Channel μ) : Prop := (ch.arrivals f).Pairwise (· > ·)

variable {f}

theorem mem_arrivals {ch : Channel μ} {i : Nat} :
    i ∈ ch.arrivals f ↔ i ∈ ch.delivered ∧ (f i).isSome := List.mem_filter

theorem arrivals_same {ch ch' : Channel μ} (h : ch'.delivered = ch.delivered) :
    ch'.arrivals f = ch.arrivals f := by
  rw [arrivals, arrivals, h]

theorem arrivals_skip {ch ch' : Channel μ} {i : Nat}
    (h : ch'.delivered = i :: ch.delivered) (hf : f i = none) :
    ch'.arrivals f = ch.arrivals f := by
  rw [arrivals, arrivals, h, List.filter_cons_of_neg (by simp [hf])]

theorem arrivals_read {ch ch' : Channel μ} {i : Nat}
    (h : ch'.delivered = i :: ch.delivered) {b : β} (hf : f i = some b) :
    ch'.arrivals f = i :: ch.arrivals f := by
  rw [arrivals, arrivals, h, List.filter_cons_of_pos (by simp [hf])]

/-- The value read last is the value at the position read last. -/
theorem head?_filterMap_delivered (ch : Channel μ) :
    (ch.delivered.filterMap f).head? = (ch.arrivals f).head?.bind f := by
  rw [arrivals]
  induction ch.delivered with
  | nil => rfl
  | cons i l ih =>
      cases hf : f i with
      | none => rw [List.filterMap_cons_none hf, List.filter_cons_of_neg (by simp [hf]), ih]
      | some b =>
          rw [List.filterMap_cons_some hf, List.filter_cons_of_pos (by simp [hf])]
          simp [hf]

theorem Extends.arrivals {ch ch' : Channel μ} (h : Extends ch ch') :
    ch.arrivals f <:+ ch'.arrivals f := h.delivered.filter _

/-- Read in order, the position read last is the greatest one read. -/
theorem InOrder.le_head {ch : Channel μ} (h : ch.InOrder f) {i j : Nat}
    (hi : (ch.arrivals f).head? = some i) (hj : j ∈ ch.arrivals f) : j ≤ i := by
  rw [InOrder] at h
  obtain ⟨rest, hrest⟩ := List.head?_eq_some_iff.mp hi
  rw [hrest] at h hj
  rcases List.mem_cons.mp hj with rfl | hj
  · exact Nat.le_refl _
  · exact Nat.le_of_lt ((List.pairwise_cons.mp h).1 j hj)

theorem InOrder.of_extends {ch ch' : Channel μ} (h : ch'.InOrder f)
    (hext : Extends ch ch') : ch.InOrder f := List.Pairwise.sublist hext.arrivals.sublist h

end Arrivals

end Channel
