import Mathlib.Data.Finset.Basic
import WorldIDBridge.Lib.Window
import WorldIDBridge.Service.Relay

/-!
# The cache is a bounded window

The cache keeps the roots twice, in a queue and in a set, and clears and
evicts in both operations. This module shows that it is a window on the
insertions: queue and set hold the roots the window shows, after any calls.
-/

namespace WorldIDBridge.Service

open TransitionRun

namespace RootCache

/-- A call of the cache at a time. -/
def call (c : RootCache) : Nat × Window.Call U256 → RootCache
  | (now, .insert root) => c.insert now root
  | (now, .contains root) => (c.contains now root).2

/-- The cache is the window `w`. -/
structure Refines {n : Nat} (interval : Nat) (c : RootCache) (w : Window U256 n) : Prop where
  maxSize : c.maxSize = n
  clearInterval : c.clearInterval = interval
  lastClearAt : c.lastClearAt = w.since
  order : c.order = w.shown
  set : c.set = w.shown.toFinset

variable {n interval now : Nat} {c : RootCache} {w : Window U256 n} {root : U256}

theorem refines_new (n interval now : Nat) :
    Refines interval (new n interval now) (.cleared now : Window U256 n) := by
  exact ⟨rfl, rfl, rfl, by rw [Window.shown_cleared]; rfl, by rw [Window.shown_cleared]; rfl⟩

/-- Queue and set, and the bound on them. -/
theorem Refines.wellFormed (h : Refines interval c w) :
    c.order.Nodup ∧ c.order.toFinset = c.set ∧ c.order.length ≤ n := by
  rw [h.order, h.set]
  exact ⟨w.shown_nodup, rfl, w.length_shown_le⟩

/-- Both clear at the same time. -/
theorem Refines.maybeClear (h : Refines interval c w) (hnow : w.since ≤ now) :
    Refines interval (c.maybeClear now) (w.refresh interval now) := by
  have hiff : now - c.lastClearAt ≥ c.clearInterval ↔ w.since + interval ≤ now := by
    rw [h.lastClearAt, h.clearInterval]
    omega
  unfold RootCache.maybeClear Window.refresh
  by_cases hover : w.since + interval ≤ now
  · rw [if_pos hover, if_pos (hiff.mpr hover)]
    exact ⟨h.maxSize, h.clearInterval, rfl, by rw [Window.shown_cleared],
      by rw [Window.shown_cleared]; rfl⟩
  · rw [if_neg hover, if_neg (fun hc => hover (hiff.mp hc))]
    exact h

theorem insert_of_mem (h : root ∈ (c.maybeClear now).set) :
    c.insert now root = c.maybeClear now := if_pos h

/-- A root that is not there is added at the end. -/
theorem insert_of_room (h : root ∉ (c.maybeClear now).set)
    (hroom : (c.maybeClear now).order.length < (c.maybeClear now).maxSize) :
    c.insert now root = { c.maybeClear now with
      order := (c.maybeClear now).order ++ [root]
      set := Insert.insert root (c.maybeClear now).set } := by
  have hfits : ¬ ((c.maybeClear now).order ++ [root]).length > (c.maybeClear now).maxSize := by
    rw [List.length_append, List.length_singleton]
    omega
  simp only [RootCache.insert, if_neg h, if_neg hfits]

/-- In a full cache the oldest root gives way, which may be the new one. -/
theorem insert_of_full {evicted : U256} {rest : List U256} (h : root ∉ (c.maybeClear now).set)
    (hfull : (c.maybeClear now).maxSize ≤ (c.maybeClear now).order.length)
    (horder : (c.maybeClear now).order ++ [root] = evicted :: rest) :
    c.insert now root = { c.maybeClear now with
      order := rest
      set := (Insert.insert root (c.maybeClear now).set).erase evicted } := by
  have hover : ((c.maybeClear now).order ++ [root]).length > (c.maybeClear now).maxSize := by
    rw [List.length_append, List.length_singleton]
    omega
  rw [horder] at hover
  simp only [RootCache.insert, if_neg h, horder, if_pos hover]

/-- **Inserting keeps the refinement**: adding at the end and evicting the
oldest is taking the last `n`, in the queue and in the set. -/
theorem Refines.insert (h : Refines interval c w) (hnow : w.since ≤ now) :
    Refines interval (c.insert now root) ((w.refresh interval now).insert root) := by
  have hclear := h.maybeClear hnow
  have hset : (c.maybeClear now).set = (c.maybeClear now).order.toFinset := by
    rw [hclear.set, hclear.order]
  have hadded : Insert.insert root (c.maybeClear now).set
      = ((c.maybeClear now).order ++ [root]).toFinset := by
    ext r
    rw [Finset.mem_insert, List.mem_toFinset, List.mem_append, List.mem_singleton, hset,
      List.mem_toFinset, or_comm]
  have hmem : root ∈ (c.maybeClear now).set ↔ root ∈ (w.refresh interval now).shown := by
    rw [hclear.set, List.mem_toFinset]
  by_cases hin : root ∈ (c.maybeClear now).set
  · rw [insert_of_mem hin, Window.insert_of_mem (hmem.mp hin)]
    exact hclear
  · have hout : root ∉ (w.refresh interval now).shown := fun hshown => hin (hmem.mpr hshown)
    have hshown := Window.shown_insert hout
    have hsince := Window.since_insert (w.refresh interval now) root
    rw [← hclear.order] at hshown
    by_cases hroom : (c.maybeClear now).order.length < (c.maybeClear now).maxSize
    · have hkept : ((c.maybeClear now).order ++ [root]).length ≤ n := by
        rw [List.length_append, List.length_singleton, ← hclear.maxSize]
        omega
      rw [Window.rtake_of_length_le hkept] at hshown
      rw [insert_of_room hin hroom]
      exact ⟨hclear.maxSize, hclear.clearInterval, hclear.lastClearAt.trans hsince.symm,
        hshown.symm, by rw [hshown]; exact hadded⟩
    · cases horder : (c.maybeClear now).order ++ [root] with
      | nil => simp at horder
      | cons evicted rest =>
          have hlen : ((c.maybeClear now).order ++ [root]).length = n + 1 := by
            have hbound := hclear.wellFormed.2.2
            have hsize := hclear.maxSize
            rw [List.length_append, List.length_singleton]
            omega
          rw [Window.rtake_of_length_eq hlen, horder, List.tail_cons] at hshown
          -- the evicted root is in the queue once
          have hnodup : (evicted :: rest).Nodup := by
            rw [← horder]
            exact List.nodup_append_comm.mp (List.nodup_cons.mpr
              ⟨fun hq => hin (by rw [hset]; exact List.mem_toFinset.mpr hq), hclear.wellFormed.1⟩)
          have hevicted : (Insert.insert root (c.maybeClear now).set).erase evicted
              = rest.toFinset := by
            rw [hadded, horder, List.toFinset_cons, Finset.erase_insert]
            exact fun hrest => (List.nodup_cons.mp hnodup).1 (List.mem_toFinset.mp hrest)
          rw [insert_of_full hin (Nat.not_lt.mp hroom) horder]
          exact ⟨hclear.maxSize, hclear.clearInterval, hclear.lastClearAt.trans hsince.symm,
            hshown.symm, by rw [hshown]; exact hevicted⟩

/-- A call that is not before the last clear is a call of the window. -/
theorem Refines.call {a : Nat × Window.Call U256} (h : Refines interval c w)
    (hnow : w.since ≤ a.1) : Refines interval (c.call a) (w.call interval a) := by
  obtain ⟨now, call⟩ := a
  cases call with
  | insert root => exact h.insert hnow
  | contains root => exact h.maybeClear hnow

/-- The calls come in the order of their times, none before `t`. -/
def Ordered (t : Nat) (calls : List (Nat × Window.Call U256)) : Prop :=
  (t :: calls.map Prod.fst).Pairwise (· ≤ ·)

/-- **The run lemma**: the induction is on the calls, and carries that the
window was last cleared at `t` at the latest. -/
theorem Refines.run {t : Nat} {calls : List (Nat × Window.Call U256)} (h : Refines interval c w)
    (hsince : w.since ≤ t) (hordered : Ordered t calls) :
    Refines interval (run RootCache.call c calls) (run (Window.call interval) w calls)
      ∧ ∀ now, (∀ t' ∈ t :: calls.map Prod.fst, t' ≤ now) →
          (TransitionRun.run (Window.call interval) w calls).since ≤ now := by
  induction calls generalizing t c w with
  | nil => exact ⟨h, fun now hnow => Nat.le_trans hsince (hnow t (List.mem_singleton_self t))⟩
  | cons a calls ih =>
      obtain ⟨hle, hrest⟩ := List.pairwise_cons.mp hordered
      have ha : w.since ≤ a.1 := Nat.le_trans hsince (hle a.1 (by simp))
      obtain ⟨href, hlast⟩ := ih (h.call ha) (Window.since_call_le ha) hrest
      exact ⟨href, fun now hnow => hlast now fun t' ht' => hnow t' (List.mem_cons_of_mem t ht')⟩

/-- What the cache finds is what the window shows. -/
theorem Refines.contains_iff (h : Refines interval c w) (hnow : w.since ≤ now) :
    (c.contains now root).1 = true ↔ root ∈ (w.refresh interval now).shown := by
  rw [contains_eq_true, live, (h.maybeClear hnow).set, List.mem_toFinset]

end RootCache

open RootCache in
/-- **The cache refines a bounded window**, for every size, interval and
sequence of calls in the order of their times: queue and set hold the same
roots, without duplicates and at most `maxSize` of them; and a root is found
exactly when it is among the last `maxSize` roots accepted since the last
clear. -/
theorem rootCache_refines (maxSize clearInterval created : Nat)
    (calls : List (Nat × Window.Call U256)) (hordered : Ordered created calls) :
    let c := run RootCache.call (.new maxSize clearInterval created) calls
    let w := run (Window.call clearInterval) (.cleared created : Window U256 maxSize) calls
    (c.order.Nodup ∧ (∀ root, root ∈ c.order ↔ root ∈ c.set) ∧ c.order.length ≤ maxSize)
      ∧ ∀ now root, (∀ t ∈ created :: calls.map Prod.fst, t ≤ now) →
          ((c.contains now root).1 = true
            ↔ root ∈ (w.refresh clearInterval now).accepted.rtake maxSize) := by
  intro c w
  obtain ⟨href, hsince⟩ := (refines_new maxSize clearInterval created).run (Nat.le_refl _) hordered
  obtain ⟨hnodup, hset, hlen⟩ := href.wellFormed
  refine ⟨⟨hnodup, fun root => ?_, hlen⟩, fun now root hnow => ?_⟩
  · rw [← hset, List.mem_toFinset]
  · exact href.contains_iff (hsince now hnow)

/-- A cache of one root: `1` is evicted by `2` and accepted again, and the
interval of `10` is over at `12`. -/
def sampleCalls : List (Nat × Window.Call U256) :=
  [(3, .insert 1), (4, .insert 2), (4, .insert 1), (7, .contains 2), (12, .insert 2)]

theorem rootCache_refines_sample :
    ((run RootCache.call (.new 1 10 0) sampleCalls).contains 12 2).1 = true :=
  ((rootCache_refines 1 10 0 sampleCalls (by simp [RootCache.Ordered, sampleCalls])).2 12 2
    (by decide)).mpr (by decide)

/-! ## The cache the tasks share -/

namespace Relay

/-- The relay's cache is a window. -/
def Windowed (s : Relay) : Prop :=
  ∃ w : Window U256 cacheMaxSize, s.cache.Refines cacheClearInterval w ∧ w.since ≤ s.now

variable {feeType : Fee} {s s' : Relay}

theorem windowed_start (now : Nat) : (start now).Windowed :=
  ⟨.cleared now, RootCache.refines_new cacheMaxSize cacheClearInterval now, Nat.le_refl now⟩

/-- Time passes, and the cache is left alone. -/
theorem Windowed.later (h : s.Windowed) (hcache : s'.cache = s.cache) (hnow : s.now ≤ s'.now) :
    s'.Windowed := by
  obtain ⟨w, href, hsince⟩ := h
  exact ⟨w, hcache ▸ href, Nat.le_trans hsince hnow⟩

/-- A task calls the cache. -/
theorem Windowed.call (h : s.Windowed) {c : Window.Call U256}
    (hcache : s'.cache = s.cache.call (s.now, c)) (hnow : s'.now = s.now) : s'.Windowed := by
  obtain ⟨w, href, hsince⟩ := h
  refine ⟨w.call cacheClearInterval (s.now, c), ?_, ?_⟩
  · rw [hcache]
    exact href.call hsince
  · rw [hnow]
    exact Window.since_call_le (a := (s.now, c)) hsince

theorem Windowed.receive (h : s.Windowed) (event : TreeChanged) :
    (s.receive feeType event).Windowed := by
  have hasked : ({ s with cache := (s.cache.contains s.now event.postRoot).2 } : Relay).Windowed :=
    h.call (c := .contains event.postRoot) rfl rfl
  unfold Relay.receive
  simp only
  split
  · exact hasked
  · exact hasked.call (c := .insert event.postRoot) rfl rfl

theorem Windowed.getAndCompareRoots (h : s.Windowed) (l1Root : U256) (l2Root : L2RootResult) :
    (s.getAndCompareRoots feeType l1Root l2Root).Windowed := by
  cases hsync : synced l1Root l2Root with
  | true =>
      simp only [Relay.getAndCompareRoots, hsync, if_true]
      exact h.later rfl (Nat.le_refl s.now)
  | false =>
      obtain ⟨-, -, hnow, hcache⟩ := getAndCompareRoots_of_unsynced feeType s hsync
      exact h.call (c := .insert l1Root) hcache hnow

theorem Windowed.step (h : s.Windowed) (a : Action) : (s.step feeType a).Windowed := by
  have hsame : ∀ {s' : Relay}, s'.cache = s.cache → s'.now = s.now → s'.Windowed :=
    fun hcache hnow => h.later hcache hnow.ge
  cases a with
  | elapse duration => exact h.later rfl (Nat.le_add_right s.now duration)
  | event event =>
      simp only [Relay.step]
      split
      · exact h.receive event
      · exact h
  | fetched l1Root response =>
      simp only [Relay.step]
      split
      · split
        · exact h.getAndCompareRoots _ _
        · exact hsame rfl rfl
        · exact hsame rfl rfl
      · exact h
  | poll =>
      simp only [Relay.step]
      split
      · exact hsame rfl rfl
      · exact h
  | pollEstimated outcome =>
      simp only [Relay.step]
      split
      · cases outcome <;> exact hsame rfl rfl
      · exact h
  | pollPropagated outcome =>
      simp only [Relay.step]
      split
      · cases outcome <;> exact hsame rfl rfl
      · exact h
  | _ => exact hsame rfl rfl

/-- **In every run of the relay** the shared cache is a bounded window. -/
theorem windowed_run (feeType : Fee) (now : Nat) (as : List Action) :
    (run (step feeType) (start now) as).Windowed :=
  run_invariant _ (P := fun _ _ => True) (fun _ a h _ => h.step a) (windowed_start now)
    (along_true _ _ as)

end Relay

end WorldIDBridge.Service
