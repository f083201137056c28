import Mathlib.Data.List.Basic

/-!
# A bounded channel with one receiver

Items are taken out in the order they were put in. A sender that finds the
channel full waits; one that finds the receiver gone fails. What the
receiver leaves behind is dropped with it: that, and the bound on the items
waiting, are fields of the channel.
-/

/-- A channel of items `ε`. `senderGone` says that no sender is left. -/
structure Mpsc (ε : Type*) (capacity : Nat) where
  items : List ε
  senderGone : Bool
  receiverGone : Bool
  bound : items.length ≤ capacity
  dropped : receiverGone = true → items = []

namespace Mpsc

variable {ε : Type*} {capacity : Nat}

def empty : Mpsc ε capacity := ⟨[], false, false, Nat.zero_le _, fun _ => rfl⟩

/-- What becomes of an attempt to put an item in. -/
inductive Sent (ε : Type*) (capacity : Nat) where
  | sent (ch : Mpsc ε capacity)
  | full
  | closed

/-- One attempt to put `x` in. -/
def send (ch : Mpsc ε capacity) (x : ε) : Sent ε capacity :=
  if h : ch.receiverGone = true then .closed
  else if hroom : ch.items.length < capacity then
    .sent ⟨ch.items ++ [x], ch.senderGone, ch.receiverGone, by
      rw [List.length_append]; exact hroom, fun hgone => absurd hgone h⟩
  else .full

/-- The oldest item, and the channel without it. -/
def recv? (ch : Mpsc ε capacity) : Option (ε × Mpsc ε capacity) :=
  match hitems : ch.items with
  | [] => none
  | x :: rest => some (x, ⟨rest, ch.senderGone, ch.receiverGone, by
      have hbound := ch.bound
      rw [hitems] at hbound
      exact Nat.le_of_succ_le hbound, fun hgone => by
      have hempty := ch.dropped hgone
      rw [hitems] at hempty
      cases hempty⟩)

/-- The last sender is gone. -/
def dropSender (ch : Mpsc ε capacity) : Mpsc ε capacity :=
  ⟨ch.items, true, ch.receiverGone, ch.bound, ch.dropped⟩

/-- The receiver is gone, and with it every item. -/
def dropReceiver (ch : Mpsc ε capacity) : Mpsc ε capacity :=
  ⟨[], ch.senderGone, true, Nat.zero_le _, fun _ => rfl⟩

@[simp] theorem items_dropSender (ch : Mpsc ε capacity) : ch.dropSender.items = ch.items := rfl
@[simp] theorem items_dropReceiver (ch : Mpsc ε capacity) : ch.dropReceiver.items = [] := rfl
@[simp] theorem receiverGone_dropSender (ch : Mpsc ε capacity) :
    ch.dropSender.receiverGone = ch.receiverGone := rfl
@[simp] theorem receiverGone_dropReceiver (ch : Mpsc ε capacity) :
    ch.dropReceiver.receiverGone = true := rfl

theorem items_of_sent {ch ch' : Mpsc ε capacity} {x : ε} (h : ch.send x = .sent ch') :
    ch'.items = ch.items ++ [x] := by
  unfold send at h
  split at h
  · cases h
  · split at h
    · cases h
      rfl
    · cases h

theorem receiverGone_of_sent {ch ch' : Mpsc ε capacity} {x : ε} (h : ch.send x = .sent ch') :
    ch'.receiverGone = ch.receiverGone := by
  unfold send at h
  split at h
  · cases h
  · split at h
    · cases h
      rfl
    · cases h

theorem receiverGone_of_closed {ch : Mpsc ε capacity} {x : ε} (h : ch.send x = .closed) :
    ch.receiverGone = true := by
  unfold send at h
  split at h
  · assumption
  · split at h <;> cases h

theorem send_of_receiverGone {ch : Mpsc ε capacity} {x : ε} (h : ch.receiverGone = true) :
    ch.send x = .closed := dif_pos h

/-- A full channel of a positive capacity is not empty. -/
theorem items_ne_nil_of_full {ch : Mpsc ε capacity} {x : ε} (h : ch.send x = .full)
    (hcap : 0 < capacity) : ch.items ≠ [] := by
  unfold send at h
  split at h
  · cases h
  · split at h
    · cases h
    · rename_i hroom
      intro hempty
      rw [hempty] at hroom
      exact hroom hcap

theorem items_of_recv? {ch ch' : Mpsc ε capacity} {x : ε} (h : ch.recv? = some (x, ch')) :
    ch.items = x :: ch'.items := by
  unfold recv? at h
  split at h
  · cases h
  · rename_i hitems
    cases h
    exact hitems

theorem receiverGone_of_recv? {ch ch' : Mpsc ε capacity} {x : ε} (h : ch.recv? = some (x, ch')) :
    ch'.receiverGone = ch.receiverGone := by
  unfold recv? at h
  split at h
  · cases h
  · cases h
    rfl

theorem recv?_eq_none {ch : Mpsc ε capacity} (h : ch.recv? = none) : ch.items = [] := by
  unfold recv? at h
  split at h
  · assumption
  · cases h

end Mpsc
