import WorldIDBridge.L2.Chain

/-!
# Which roots are valid, over whole runs

`requireValidRoot` answers from two storage cells; the register of the
previous module answers from the messages. Here the two are shown equal
(`requireValidRoot_status`), and the register's laws become laws of every
run of the contract: which roots are valid, what holds before the first
root, and that history is written once and never revived.
-/

namespace WorldIDBridge.L2

open StarkWorldID TransitionRun

namespace Chain

/-- A verdict of the register as the outcome of `require_valid_root`. -/
def verdict : Registry.Status → Except Panic Unit
  | .valid => .ok ()
  | .unknown => .error .nonExistentRoot
  | .expired => .error .expiredRoot

theorem verdict_eq_ok {a : Registry.Status} : verdict a = .ok () ↔ a = .valid := by
  cases a <;> simp [verdict]

theorem verdict_eq_nonExistentRoot {a : Registry.Status} :
    verdict a = .error .nonExistentRoot ↔ a = .unknown := by
  cases a <;> simp [verdict]

theorem verdict_eq_expiredRoot {a : Registry.Status} :
    verdict a = .error .expiredRoot ↔ a = .expired := by
  cases a <;> simp [verdict]

theorem verdict_ne_overflow (a : Registry.Status) :
    verdict a ≠ .error .u256SubOverflow := by
  cases a <;> simp [verdict]

/-- Every admission of the register lies in the past of `now`. -/
def Before (g : Registry U256) (now : U64) : Prop := ∀ e ∈ g.entries, e.2 ≤ now.toNat

/-- **The contract's check is the register's verdict.** The one exception is
the zero root before any root was received: it equals the empty latest
cell. -/
theorem requireValidRoot_status {c : Chain} {g : Registry U256} (h : Abstracts c g)
    {now : U64} (hnow : Before g now) {r : U256} (hr : g.latest? = none → r ≠ 0) :
    WorldID.requireValidRoot c.storage.worldID r now
      = verdict (g.status r now.toNat) := by
  by_cases hlast : r = c.storage.worldID.latestRoot
  · -- the shortcut: `r` is in the latest cell, so it was received last
    cases hg : g.latest? with
    | none =>
        rw [h.latest, hg] at hlast
        exact absurd hlast (hr hg)
    | some l =>
        have hl : r = l := by rw [hlast, h.latest, hg]; rfl
        obtain ⟨⟨k, t⟩, hmem, rfl⟩ := List.mem_map.mp (Registry.mem_keys_of_latest hg)
        have hvalid : g.status r now.toNat = .valid :=
          Registry.status_eq_valid.mpr ⟨t, hl ▸ hmem, .inl (hl ▸ hg)⟩
        rw [hvalid, hlast]
        exact WorldID.requireValidRoot_latest _ _
  · cases ht : g.timeOf? r with
    | none =>
        have hunknown : g.status r now.toNat = .unknown := by rw [Registry.status, ht]
        have hz := h.history_eq_zero.mpr (Registry.timeOf?_eq_none.mp ht)
        rw [hunknown, WorldID.requireValidRoot_unknown hlast hz]
        rfl
    | some t =>
        have hmem := Registry.timeOf?_eq_some.mp ht
        have htime : (c.storage.worldID.rootHistory r).toNat = t := by
          rw [h.history, ht]; rfl
        have hnz : c.storage.worldID.rootHistory r ≠ 0 := fun hz =>
          h.history_eq_zero.mp hz (Registry.mem_keys_of_mem hmem)
        have hne : g.latest? ≠ some r := fun hg =>
          hlast (by rw [h.latest, hg]; rfl)
        rw [WorldID.requireValidRoot_known hlast hnz (htime ▸ hnow _ hmem), htime,
          h.expiry]
        simp only [Registry.status, ht, hne, false_or]
        split <;> rfl

/-- Messages up to `now` make a history up to `now`. -/
theorem before_of_run {c₀ : Chain} {ds : List Delivery} {g : Registry U256} {now : U64}
    (h : Abstracts (run deliver c₀ ds) g) (h₀ : c₀.accepted = [])
    (hds : ∀ d ∈ ds, d.timestamp ≤ now) : Before g now := by
  intro ⟨r, n⟩ he
  rw [h.entries] at he
  obtain ⟨t, hmem, rfl⟩ := mem_receivedRoots.mp he
  rcases accepted_run hmem with hmem | ⟨d, hd, htime, -⟩
  · rw [h₀] at hmem
    exact absurd hmem List.not_mem_nil
  · simpa only [htime, BitVec.le_def] using hds d hd

theorem deploy_accepted {l1Address : EthAddress} {treeDepth : U8} {c : Chain}
    (h : deploy l1Address treeDepth = .ok c) : c.accepted = [] := by
  obtain ⟨-, rfl⟩ := deploy_eq_ok.mp h
  rfl

/-! ## Validity is exact -/

theorem Abstracts.lastReceived {c : Chain} {g : Registry U256} (h : Abstracts c g) :
    c.lastReceived = g.latest? := by
  rw [Chain.lastReceived, ← h.entries, Registry.latest?, Registry.keys, List.head?_map]

/-- A `receive_root(r)` message was accepted at `t₀`, and at `now` the root
is still good: the latest one, or within the expiry currently set. -/
def GoodSince (c : Chain) (r : U256) (t₀ now : U64) : Prop :=
  (t₀, .receiveRoot r) ∈ c.accepted ∧ t₀ ≤ now
    ∧ (c.lastReceived = some r ∨ now.toNat - t₀.toNat ≤ currentExpiry c.accepted)

/-- The register has an entry for the roots received. -/
theorem Abstracts.mem_entries {c : Chain} {g : Registry U256} (h : Abstracts c g) {r : U256} :
    (∃ n, (r, n) ∈ g.entries) ↔ ∃ t₀, (t₀, .receiveRoot r) ∈ c.accepted := by
  simp only [h.entries, mem_receivedRoots]
  exact ⟨fun ⟨_, t, ht, _⟩ => ⟨t, ht⟩, fun ⟨t, ht⟩ => ⟨_, t, ht, rfl⟩⟩

theorem Abstracts.status_unknown {c : Chain} {g : Registry U256} (h : Abstracts c g)
    {r : U256} {now : U64} :
    g.status r now.toNat = .unknown ↔ ∀ t₀, (t₀, .receiveRoot r) ∉ c.accepted := by
  rw [Registry.status_eq_unknown, ← not_exists, h.mem_entries, not_exists]

/-- The register calls the roots valid that are good since some time. -/
theorem Abstracts.status_valid {c : Chain} {g : Registry U256} (h : Abstracts c g)
    {r : U256} {now : U64} (hnow : Before g now) :
    g.status r now.toNat = .valid ↔ ∃ t₀, GoodSince c r t₀ now := by
  rw [Registry.status_eq_valid, ← h.lastReceived, h.window]
  constructor
  · rintro ⟨n, hmem, hv⟩
    have hle := hnow _ hmem
    rw [h.entries] at hmem
    obtain ⟨t, ht, rfl⟩ := mem_receivedRoots.mp hmem
    exact ⟨t, ht, hle, hv⟩
  · rintro ⟨t, ht, -, hv⟩
    exact ⟨t.toNat, h.entries ▸ mem_receivedRoots.mpr ⟨t, ht, rfl⟩, hv⟩

/-- What is neither valid nor unknown is expired. -/
theorem Abstracts.status_expired {c : Chain} {g : Registry U256} (h : Abstracts c g)
    {r : U256} {now : U64} (hnow : Before g now) :
    g.status r now.toNat = .expired
      ↔ (∃ t₀, (t₀, .receiveRoot r) ∈ c.accepted) ∧ ¬ ∃ t₀, GoodSince c r t₀ now := by
  rw [← h.status_valid hnow, ← h.mem_entries]
  cases hs : g.status r now.toNat with
  | valid => simp
  | unknown => simpa using Registry.status_eq_unknown.mp hs
  | expired =>
      obtain ⟨n, hmem, -⟩ := Registry.status_eq_expired.mp hs
      simpa using ⟨n, hmem⟩

/-- **Root validity is exact** for a nonzero root, at any time not before the
messages: valid iff received and (latest or not too old), unknown iff never
received, expired otherwise; and the age is never negative. -/
theorem requireValidRoot_exact {l1Address : EthAddress} {treeDepth : U8} {c₀ : Chain}
    (hdeploy : deploy l1Address treeDepth = .ok c₀) (ds : List Delivery) (now : U64)
    (hpos : ∀ d ∈ ds, 0 < d.timestamp.toNat) (hnow : ∀ d ∈ ds, d.timestamp ≤ now)
    {r : U256} (hr : r ≠ 0) :
    let c := run deliver c₀ ds
    let outcome := WorldID.requireValidRoot c.storage.worldID r now
    (outcome = .ok () ↔ ∃ t₀, GoodSince c r t₀ now)
      ∧ (outcome = .error .nonExistentRoot ↔ ∀ t₀, (t₀, .receiveRoot r) ∉ c.accepted)
      ∧ (outcome = .error .expiredRoot
          ↔ (∃ t₀, (t₀, .receiveRoot r) ∈ c.accepted) ∧ ¬ ∃ t₀, GoodSince c r t₀ now)
      ∧ outcome ≠ .error .u256SubOverflow := by
  intro c outcome
  obtain ⟨g, hg, -⟩ := run_abstracts (deploy_abstracts hdeploy) hpos
  have hbefore := before_of_run hg (deploy_accepted hdeploy) hnow
  have hout : outcome = verdict (g.status r now.toNat) :=
    requireValidRoot_status hg hbefore (fun _ => hr)
  refine ⟨?_, ?_, ?_, hout ▸ verdict_ne_overflow _⟩
  · rw [hout, verdict_eq_ok, hg.status_valid hbefore]
  · rw [hout, verdict_eq_nonExistentRoot, hg.status_unknown]
  · rw [hout, verdict_eq_expiredRoot, hg.status_expired hbefore]

/-- A contract owned by the L1 account `7`, before any message. -/
def sample : Chain :=
  ⟨⟨⟨7⟩, ⟨20, WorldID.oneWeek, 0, fun _ => 0⟩⟩, [], [.crossDomainOwnableEvent ⟨0, 7⟩]⟩

theorem deploy_sample : deploy 7 20 = .ok sample := rfl

/-- Roots `5` and `6`, with an expiry of three seconds set between them. -/
def sampleMessages : List Delivery :=
  [⟨10, (HandlerCall.receiveRoot 5).message 7⟩,
    ⟨11, (HandlerCall.setRootHistoryExpiry 3).message 7⟩,
    ⟨12, (HandlerCall.receiveRoot 6).message 7⟩]

/-- Three seconds after it was received the superseded root is still good. -/
theorem requireValidRoot_exact_sample :
    ∃ t₀, GoodSince (run deliver sample sampleMessages) 5 t₀ 13 :=
  (requireValidRoot_exact (r := 5) deploy_sample sampleMessages 13 (by decide)
    (by decide) (by decide)).1.mp (by rfl)

/-! ## Before the first root, and the zero root -/

/-- What the interface promises about a contract that has seen no root, and
about the latest root of one that has. -/
structure Bootstraps (c : Chain) (r : U256) (now : U64) : Prop where
  nothingValid : c.lastReceived = none →
    ∃ e, WorldID.requireValidRoot c.storage.worldID r now = .error e
  noRootsSeen : WorldID.latestRoot c.storage.worldID = .error .noRootsSeen
    ↔ c.lastReceived = none
  latest : ∀ l, c.lastReceived = some l → WorldID.latestRoot c.storage.worldID = .ok l

theorem requireValidRoot_fresh {c : Chain} {g : Registry U256} (h : Abstracts c g)
    (hg : g.latest? = none) {r : U256} (hr : r ≠ 0) (now : U64) :
    WorldID.requireValidRoot c.storage.worldID r now = .error .nonExistentRoot := by
  have hcell : c.storage.worldID.latestRoot = 0 := by rw [h.latest, hg]; rfl
  have hkeys : r ∉ g.keys := by
    rw [Registry.latest?, List.head?_eq_none_iff] at hg
    rw [hg]
    exact List.not_mem_nil
  exact WorldID.requireValidRoot_unknown (hcell ▸ hr) (h.history_eq_zero.mpr hkeys)

/-- Before the first root the promise fails for the zero root alone. -/
theorem bootstraps_iff_of_fresh {c : Chain} {g : Registry U256} (h : Abstracts c g)
    (hfresh : c.lastReceived = none) {r : U256} {now : U64} :
    Bootstraps c r now ↔ r ≠ 0 := by
  have hempty : g.latest? = none := h.lastReceived ▸ hfresh
  have hcell : c.storage.worldID.latestRoot = 0 := by rw [h.latest, hempty]; rfl
  have hlatest : WorldID.latestRoot c.storage.worldID = .error .noRootsSeen := by
    rw [WorldID.latestRoot_eq, if_pos hcell]
  constructor
  · rintro hboot rfl
    -- the zero root is the root in the empty latest cell
    obtain ⟨e, he⟩ := hboot.nothingValid hfresh
    rw [← hcell, WorldID.requireValidRoot_latest] at he
    cases he
  · intro hr
    refine ⟨fun _ => ⟨_, requireValidRoot_fresh h hempty hr now⟩,
      iff_of_true hlatest hfresh, fun l hl => ?_⟩
    rw [hfresh] at hl
    cases hl

/-- After the root `l` the promise fails if `l` is zero. -/
theorem bootstraps_iff_of_received {c : Chain} {g : Registry U256} (h : Abstracts c g)
    {l : U256} (hl : c.lastReceived = some l) {r : U256} {now : U64} :
    Bootstraps c r now ↔ l ≠ 0 := by
  have hcell : c.storage.worldID.latestRoot = l := by
    rw [h.latest, ← h.lastReceived, hl]
    rfl
  have hlatest := WorldID.latestRoot_eq c.storage.worldID
  rw [hcell] at hlatest
  constructor
  · rintro hboot rfl
    rw [hboot.latest 0 hl, if_pos rfl] at hlatest
    cases hlatest
  · intro hne
    rw [if_neg hne] at hlatest
    refine ⟨fun h => ?_, ?_, fun l' hl' => ?_⟩
    · rw [hl] at h
      cases h
    · rw [hlatest, hl]
      exact iff_of_false nofun nofun
    · rw [hlatest, ← Option.some.inj (hl.symm.trans hl')]

/-- **The promise is kept up to the marker zero**: it holds of a root and a
state exactly when the root is not zero while none was received, and the
root received last is not zero. -/
theorem bootstraps_iff {l1Address : EthAddress} {treeDepth : U8} {c₀ : Chain}
    (hdeploy : deploy l1Address treeDepth = .ok c₀) (ds : List Delivery)
    (hpos : ∀ d ∈ ds, 0 < d.timestamp.toNat) (r : U256) (now : U64) :
    Bootstraps (run deliver c₀ ds) r now
      ↔ ((run deliver c₀ ds).lastReceived = none → r ≠ 0)
        ∧ (run deliver c₀ ds).lastReceived ≠ some 0 := by
  obtain ⟨g, hg, -⟩ := run_abstracts (deploy_abstracts hdeploy) hpos
  cases hl : (run deliver c₀ ds).lastReceived with
  | none =>
      rw [bootstraps_iff_of_fresh hg hl]
      simp
  | some l =>
      rw [bootstraps_iff_of_received hg hl]
      simp

/-- A contract that received a nonzero root keeps the promise for the zero
root as well. -/
theorem bootstraps_sample : Bootstraps (run deliver sample sampleMessages) 0 12 :=
  (bootstraps_iff deploy_sample sampleMessages (by decide) 0 12).mpr
    ⟨by decide, by decide⟩

/-- A fresh contract takes the zero root for valid, and one that received
the zero root says it has seen none. -/
theorem zero_root_breaks_bootstrap :
    (sample.lastReceived = none
        ∧ WorldID.requireValidRoot sample.storage.worldID 0 1 = .ok ())
      ∧ (sample.deliver ⟨1, (HandlerCall.receiveRoot 0).message 7⟩).lastReceived = some 0
      ∧ WorldID.latestRoot
          (sample.deliver ⟨1, (HandlerCall.receiveRoot 0).message 7⟩).storage.worldID
        = .error .noRootsSeen :=
  ⟨⟨rfl, rfl⟩, by decide, by rfl⟩

/-! ## History is written once -/

/-- `t₀` is the time of the first accepted `receive_root(r)`: nothing older
received `r`. -/
def FirstReceived (c : Chain) (r : U256) (t₀ : U64) : Prop :=
  ∃ newer older, c.accepted = newer ++ (t₀, .receiveRoot r) :: older
    ∧ ∀ t, (t, .receiveRoot r) ∉ older

/-- A call that is accepted does not receive a known root. -/
theorem not_accepts_known {c : Chain} {d : Delivery} {r : U256}
    (hr : c.storage.worldID.rootHistory r ≠ 0) (hd : d.message.decode = .ok (.receiveRoot r)) :
    ∀ call, ¬ c.Accepts d call := by
  rintro call ⟨hdec, -, hguard⟩
  rw [hd, Except.ok.injEq] at hdec
  subst hdec
  exact hr hguard

theorem Abstracts.timeOf?_of_ne_zero {c : Chain} {g : Registry U256}
    (h : Abstracts c g) {r : U256} (hr : c.storage.worldID.rootHistory r ≠ 0) :
    ∃ n, g.timeOf? r = some n := by
  rw [← Option.ne_none_iff_exists', ne_eq, Registry.timeOf?_eq_none,
    ← h.history_eq_zero]
  exact hr

/-- A set timestamp is the time of the first acceptance. -/
theorem Abstracts.firstReceived {c : Chain} {g : Registry U256} (h : Abstracts c g)
    {r : U256} (hr : c.storage.worldID.rootHistory r ≠ 0) :
    ∃ t₀ : U64, FirstReceived c r t₀
      ∧ c.storage.worldID.rootHistory r = t₀.setWidth 128 := by
  obtain ⟨n, hn⟩ := h.timeOf?_of_ne_zero hr
  have hmem := Registry.timeOf?_eq_some.mp hn
  rw [h.entries] at hmem
  obtain ⟨t₀, hacc, rfl⟩ := mem_receivedRoots.mp hmem
  obtain ⟨newer, older, hsplit⟩ := List.append_of_mem hacc
  refine ⟨t₀, ⟨newer, older, hsplit, fun t hold => ?_⟩, ?_⟩
  · -- a second acceptance would enter the key `r` twice
    have honce := g.once
    rw [h.entries, hsplit] at honce
    have hdup := mem_receivedRoots.mpr ⟨t, hold, rfl⟩
    simp only [receivedRoots, List.filterMap_append, List.filterMap_cons,
      List.map_append, List.map_cons, List.nodup_append, List.nodup_cons] at honce hdup
    exact honce.2.1.1 (List.mem_map.mpr ⟨_, hdup, rfl⟩)
  · refine BitVec.eq_of_toNat_eq ?_
    rw [h.history, hn, BitVec.toNat_setWidth_of_le (by omega), Option.getD_some]

/-- A set timestamp survives every extension of the history. -/
theorem Abstracts.rootHistory_extends {c c' : Chain} {g g' : Registry U256}
    (h : Abstracts c g) (h' : Abstracts c' g') (hext : g.Extends g') {r : U256}
    (hr : c.storage.worldID.rootHistory r ≠ 0) :
    c'.storage.worldID.rootHistory r = c.storage.worldID.rootHistory r := by
  obtain ⟨n, hn⟩ := h.timeOf?_of_ne_zero hr
  refine BitVec.eq_of_toNat_eq ?_
  rw [h'.history, h.history, hn, hext.timeOf? hn]

/-- An expired root is in the history, and expired there too. -/
theorem Abstracts.status_of_expired {c : Chain} {g : Registry U256} (h : Abstracts c g)
    {r : U256} {now : U64} (hnow : Before g now)
    (hexp : WorldID.requireValidRoot c.storage.worldID r now = .error .expiredRoot) :
    g.status r now.toNat = .expired := by
  rw [requireValidRoot_status h hnow, verdict_eq_expiredRoot] at hexp
  · exact hexp
  · rintro hg rfl
    have hcell : c.storage.worldID.latestRoot = 0 := by rw [h.latest, hg]; rfl
    rw [← hcell, WorldID.requireValidRoot_latest] at hexp
    cases hexp

/-- The expiry is not raised by the message. -/
def KeepsExpiry (c : Chain) (d : Delivery) : Prop :=
  (c.deliver d).storage.worldID.rootHistoryExpiry ≤ c.storage.worldID.rootHistoryExpiry

theorem expiry_le_of_along {c : Chain} {ds : List Delivery}
    (h : Along deliver KeepsExpiry c ds) :
    (run deliver c ds).storage.worldID.rootHistoryExpiry
      ≤ c.storage.worldID.rootHistoryExpiry :=
  run_rel deliver (R := fun c c' => c'.storage.worldID.rootHistoryExpiry
      ≤ c.storage.worldID.rootHistoryExpiry) (P := KeepsExpiry)
    (fun _ => Fin.le_refl _) (fun _ _ _ h h' => Fin.le_trans h' h) (fun _ _ h => h) h

/-- A set timestamp is the time of one first acceptance, before and after the
extension. -/
theorem Abstracts.firstReceived_extends {c c' : Chain} {g g' : Registry U256}
    (h : Abstracts c g) (h' : Abstracts c' g') (hext : g.Extends g') {r : U256}
    (hr : c.storage.worldID.rootHistory r ≠ 0) :
    ∃ t₀ : U64, FirstReceived c r t₀ ∧ FirstReceived c' r t₀
      ∧ c.storage.worldID.rootHistory r = t₀.setWidth 128
      ∧ c'.storage.worldID.rootHistory r = t₀.setWidth 128 := by
  have hkeep := h.rootHistory_extends h' hext hr
  obtain ⟨t₀, hfirst, ht₀⟩ := h.firstReceived hr
  obtain ⟨t₁, hfirst', ht₁⟩ := h'.firstReceived (hkeep.symm ▸ hr)
  have htime : t₁ = t₀ := by
    have heq := congrArg BitVec.toNat (ht₁.symm.trans (hkeep.trans ht₀))
    rw [BitVec.toNat_setWidth_of_le (by omega),
      BitVec.toNat_setWidth_of_le (by omega)] at heq
    exact BitVec.eq_of_toNat_eq heq
  subst htime
  exact ⟨t₁, hfirst, hfirst', ht₀, ht₁⟩

/-- A root with a timestamp is refused, and the message changes nothing. -/
theorem receiveRoot_refused {c : Chain} {r : U256}
    (hr : c.storage.worldID.rootHistory r ≠ 0) {d : Delivery}
    (hd : d.message.decode = .ok (.receiveRoot r)) :
    (∃ e, (HandlerCall.receiveRoot r).exec c.storage d.message.fromAddress d.timestamp
        = .error e) ∧ c.deliver d = c := by
  refine ⟨?_, deliver_of_rejects (not_accepts_known hr hd)⟩
  cases hexec : (HandlerCall.receiveRoot r).exec c.storage d.message.fromAddress
      d.timestamp with
  | error e => exact ⟨e, rfl⟩
  | ok w => exact absurd (HandlerCall.exec_eq_ok.mp hexec).2.1 hr

/-- The contract's check finds an expired root of the register expired. -/
theorem Abstracts.expiredRoot_of_status {c : Chain} {g : Registry U256} (h : Abstracts c g)
    {r : U256} {now : U64} (hnow : Before g now) (hstatus : g.status r now.toNat = .expired) :
    WorldID.requireValidRoot c.storage.worldID r now = .error .expiredRoot := by
  rw [requireValidRoot_status h hnow, hstatus]
  · rfl
  · -- the register is not empty: it holds `r`
    intro hnone
    obtain ⟨n, hmem, -⟩ := Registry.status_eq_expired.mp hstatus
    rw [Registry.latest?, List.head?_eq_none_iff] at hnone
    exact absurd (Registry.mem_keys_of_mem hmem) (hnone ▸ List.not_mem_nil)

/-- **Write-once history and no revival**: after any messages `ds`, whatever
messages `ds'` follow, a set timestamp is the first acceptance's and stays;
the root is refused from then on; and an expired root stays expired as long
as no accepted message raises the expiry. -/
theorem rootHistory_writeOnce {l1Address : EthAddress} {treeDepth : U8} {c₀ : Chain}
    (hdeploy : deploy l1Address treeDepth = .ok c₀) (ds ds' : List Delivery)
    (hpos : ∀ d ∈ ds ++ ds', 0 < d.timestamp.toNat) (r : U256) :
    let c := run deliver c₀ ds
    let c' := run deliver c ds'
    (c.storage.worldID.rootHistory r ≠ 0 →
      (∃ t₀ : U64, FirstReceived c r t₀ ∧ FirstReceived c' r t₀
        ∧ c.storage.worldID.rootHistory r = t₀.setWidth 128
        ∧ c'.storage.worldID.rootHistory r = t₀.setWidth 128)
      ∧ ∀ (d : Delivery), d.message.decode = .ok (.receiveRoot r) →
          (∃ e, (HandlerCall.receiveRoot r).exec c'.storage d.message.fromAddress
            d.timestamp = .error e) ∧ c'.deliver d = c')
    ∧ ∀ t t' : U64, (∀ d ∈ ds, d.timestamp ≤ t) → (∀ d ∈ ds', d.timestamp ≤ t') →
        t ≤ t' → Along deliver KeepsExpiry c ds' →
        WorldID.requireValidRoot c.storage.worldID r t = .error .expiredRoot →
        WorldID.requireValidRoot c'.storage.worldID r t' = .error .expiredRoot := by
  intro c c'
  have hpos₁ : ∀ d ∈ ds, 0 < d.timestamp.toNat := fun d hd =>
    hpos d (List.mem_append_left _ hd)
  have hpos₂ : ∀ d ∈ ds', 0 < d.timestamp.toNat := fun d hd =>
    hpos d (List.mem_append_right _ hd)
  obtain ⟨g, hg, -⟩ := run_abstracts (deploy_abstracts hdeploy) hpos₁
  obtain ⟨g', hg', hext⟩ := run_abstracts hg hpos₂
  constructor
  · intro hr
    have hr' : c'.storage.worldID.rootHistory r ≠ 0 :=
      (hg.rootHistory_extends hg' hext hr).symm ▸ hr
    exact ⟨hg.firstReceived_extends hg' hext hr, fun d hd => receiveRoot_refused hr' hd⟩
  · intro t t' ht ht' htt' hkeeps hexp
    have h₀ := deploy_accepted hdeploy
    have hstatus := hg.status_of_expired (before_of_run hg h₀ ht) hexp
    have hbefore' : Before g' t' := by
      have hg'' := hg'
      rw [← run_append] at hg''
      refine before_of_run hg'' h₀ (fun d hd => ?_)
      rcases List.mem_append.mp hd with hd | hd
      · exact BitVec.le_trans (ht d hd) htt'
      · exact ht' d hd
    have hwindow : g'.window ≤ g.window := by
      rw [← hg.expiry, ← hg'.expiry]
      exact expiry_le_of_along hkeeps
    exact hg'.expiredRoot_of_status hbefore'
      (hext.expired hwindow (BitVec.le_def.mp htt') hstatus)

/-- Root `5`, superseded by `6` and five seconds old, is refused and stays
expired after root `7`. -/
theorem rootHistory_writeOnce_sample :
    WorldID.requireValidRoot
      (run deliver (run deliver sample sampleMessages)
        [⟨20, (HandlerCall.receiveRoot 7).message 7⟩]).storage.worldID 5 21
      = .error .expiredRoot :=
  (rootHistory_writeOnce deploy_sample sampleMessages
    [⟨20, (HandlerCall.receiveRoot 7).message 7⟩] (by decide) 5).2 15 21
    (by decide) (by decide) (by decide) ⟨Fin.le_refl 3, trivial⟩ (by rfl)

end Chain

end WorldIDBridge.L2
