import Mathlib.Data.Finset.Erase
import Mathlib.Data.Finset.Insert
import WorldIDBridge.Types

/-!
# The cache of the roots seen

The listener and the poller share a cache of roots: a set to ask, and the
order of insertion to evict by. Both operations first clear it when the
interval is over. Times and durations are in nanoseconds; one call reads the
clock once.
-/

namespace WorldIDBridge.Service

/-- `CACHE_MAX_SIZE`. -/
def cacheMaxSize : Nat := 10000

/-- `CACHE_CLEAR_INTERVAL`: 24 hours. -/
def cacheClearInterval : Nat := 86400 * 10 ^ 9

structure RootCache where
  maxSize : Nat
  clearInterval : Nat
  lastClearAt : Nat
  order : List U256
  set : Finset U256
  deriving DecidableEq

namespace RootCache

def new (maxSize clearInterval now : Nat) : RootCache :=
  { maxSize, clearInterval, lastClearAt := now, order := [], set := ∅ }

def maybeClear (c : RootCache) (now : Nat) : RootCache :=
  if now - c.lastClearAt ≥ c.clearInterval then
    { c with order := [], set := ∅, lastClearAt := now }
  else c

def contains (c : RootCache) (now : Nat) (root : U256) : Bool × RootCache :=
  let c := c.maybeClear now
  (decide (root ∈ c.set), c)

def insert (c : RootCache) (now : Nat) (root : U256) : RootCache :=
  let c := c.maybeClear now
  if root ∈ c.set then c
  else
    let c := { c with set := Insert.insert root c.set, order := c.order ++ [root] }
    if c.order.length > c.maxSize then
      match c.order with
      | evicted :: order => { c with order, set := c.set.erase evicted }
      | [] => c
    else c

variable {c : RootCache} {now : Nat} {root r : U256}

@[simp] theorem set_new (maxSize clearInterval now : Nat) :
    (new maxSize clearInterval now).set = ∅ := rfl

/-- The roots a call finds at the time `now`. -/
def live (c : RootCache) (now : Nat) : Finset U256 := (c.maybeClear now).set

theorem contains_eq_true : (c.contains now root).1 = true ↔ root ∈ c.live now :=
  decide_eq_true_iff

@[simp] theorem contains_snd : (c.contains now root).2 = c.maybeClear now := rfl

/-- Clearing adds nothing. -/
theorem mem_of_mem_live (h : r ∈ c.live now) : r ∈ c.set := by
  unfold live maybeClear at h
  split at h
  · exact absurd h (Finset.notMem_empty r)
  · exact h

theorem mem_of_mem_live_maybeClear (h : r ∈ (c.maybeClear now).live now) : r ∈ c.live now :=
  mem_of_mem_live h

/-- What is found later is found now. -/
theorem mem_live_of_later {duration : Nat} (h : r ∈ c.live (now + duration)) : r ∈ c.live now := by
  unfold live maybeClear at h ⊢
  split at h
  · exact absurd h (Finset.notMem_empty r)
  · rename_i hlater
    rwa [if_neg (by omega)]

/-- Only the root inserted is new; clearing and eviction take roots away. -/
theorem mem_of_mem_insert (h : r ∈ (c.insert now root).set) : r = root ∨ r ∈ c.live now := by
  have hnew : r ∈ Insert.insert root (c.maybeClear now).set → r = root ∨ r ∈ c.live now :=
    Finset.mem_insert.mp
  unfold insert at h
  simp only at h
  split at h
  · exact .inr h
  · split at h
    · split at h
      · exact hnew (Finset.mem_of_mem_erase h)
      · exact hnew h
    · exact hnew h

end RootCache

end WorldIDBridge.Service
