import WorldIDBridge.Lib.Outcome
import WorldIDBridge.Service.MessageFee
import WorldIDBridge.Service.Polling
import WorldIDBridge.System.Estimation

/-!
# The poller between the two chains

The poller reads the root of each chain, one after the other, and propagates
when they differ. The chains move on meanwhile, and other accounts call the
bridge too. The module says when this brings the chains together. A root that
is new to L2 gets there, and then the poller rests. A root that L2 had
before, and has left behind for another, never becomes its latest root again:
the poller finds the chains apart at every poll, for as long as L1 has that
root, and unless it estimates its fees it pays at every poll.
-/

namespace WorldIDBridge

open Checked Prog L2 Service TransitionRun

/-- The two chains and the poller. `poll` is its call of
`get_and_compare_roots`, a value between two calls; `asked` are its requests
with the answers, newest first; `pool` are the fees of its transactions that
are broadcast and not included. -/
structure Watch where
  chains : System
  poll : PollTask (Except PollError Unit)
  asked : List (Exchange PollRequest PollResponse)
  pool : List U256

namespace Watch

/-- What is fixed during a run. -/
structure Setting where
  book : BridgeAddressBook
  identityManager : EthAddress
  /-- The account the relayer signs for. -/
  wallet : EthAddress
  feeType : Fee

inductive Action where
  /-- Anything that happens on the chains. -/
  | chain (a : WorldIDBridge.Action)
  /-- The deadline is over. -/
  | poll
  /-- The pending request is answered. -/
  | answer (x : Exchange PollRequest PollResponse)
  /-- The propagation broadcasts a transaction. -/
  | broadcast
  /-- The transaction at a position of the pool is included. -/
  | mine (i : Nat)

/-- The poller before its first deadline. -/
def start (chains : System) : Watch := ⟨chains, .ret (.ok ()), [], []⟩

variable (env : Setting)

def step (s : Watch) : Action → Watch
  | .chain a => { s with chains := System.step env.book.accounts s.chains a }
  | .poll =>
      match s.poll with
      -- an error is logged, and the poller waits for the next deadline
      | .ret _ => { s with poll := (StateBridge.getAndCompareRoots env.feeType).run }
      | _ => s
  | .answer x =>
      match s.poll.reply? x with
      | some poll => { s with poll, asked := x :: s.asked }
      | none => s
  | .broadcast =>
      match s.poll with
      | .call (.propagateRootWithRetry value) _ => { s with pool := s.pool ++ [value] }
      | _ => s
  | .mine i =>
      match s.pool[i]? with
      | some value =>
          { s with
            chains := System.step env.book.accounts s.chains
              (.call ⟨env.wallet, value⟩ .propagateRoot)
            pool := s.pool.eraseIdx i }
      | none => s

/-- What the nodes may answer: a request may fail, and otherwise they say what
the chains hold. A fee is estimated by running the message. -/
def Truthful (chains : System) : Exchange PollRequest PollResponse → Prop
  | ⟨.getL1RootU256, .ok root⟩ => chains.world.latestRoot env.identityManager = some root
  | ⟨.latestRoot, response⟩ => response = .error none
      ∨ ∃ c, chains.worldID = some c ∧ response = latestRootCall c.storage.worldID
  | ⟨.estimateMessagingFee rootAsFelts, .ok _⟩ => ∃ c now, chains.worldID = some c
      ∧ (⟨now, (env.book.buildMsgFromL1 rootAsFelts).handlerMessage⟩ : Delivery).Accepted c.storage
  | _ => True

/-- Every answer is truthful. -/
def Honest (s : Watch) : Action → Prop
  | .answer x => Truthful env s.chains x
  | _ => True

/-- L1 has the root. -/
def AtRoot (root : U256) (s : Watch) : Prop :=
  s.chains.world.latestRoot env.identityManager = some root

/-- A call of `propagate_root_with_retry` that returned. -/
def isSubmission : Exchange PollRequest PollResponse → Bool
  | ⟨.propagateRootWithRetry _, _⟩ => true
  | _ => false

/-- The contract on L2 answered. -/
def isTold : Exchange PollRequest PollResponse → Bool
  | ⟨.latestRoot, response⟩ => response ≠ .error none
  | _ => false

variable {env} {s : Watch}

variable (env) in
/-- The chains take one step of their own, or none. -/
theorem chains_step (s : Watch) (a : Action) :
    (s.step env a).chains = s.chains
      ∨ ∃ b, (a = .chain b
            ∨ ∃ i value, a = .mine i ∧ b = .call ⟨env.wallet, value⟩ .propagateRoot)
          ∧ (s.step env a).chains = System.step env.book.accounts s.chains b := by
  cases a with
  | chain b => exact .inr ⟨b, .inl rfl, rfl⟩
  | mine i =>
      simp only [step]
      split
      · rename_i value _
        exact .inr ⟨_, .inr ⟨i, value, rfl, rfl⟩, rfl⟩
      · exact .inl rfl
  | _ =>
      simp only [step]
      split <;> exact .inl rfl

/-! ## One poll under a monitor -/

section Monitored

variable {σ : Type} {M : Monitor PollRequest PollResponse σ}
  {rely : (q : PollRequest) → PollResponse q → Prop} {m₀ : σ}
  {R : σ → List (Exchange PollRequest PollResponse) → Prop}

/-- The poll in progress keeps to the monitor and ends where it began; `R`
links the monitor to what was asked. -/
def Watched (M : Monitor PollRequest PollResponse σ)
    (rely : (q : PollRequest) → PollResponse q → Prop) (m₀ : σ)
    (R : σ → List (Exchange PollRequest PollResponse) → Prop) (s : Watch) : Prop :=
  ∃ m, s.poll.outcome M rely (fun _ m => m = m₀) m ∧ R m s.asked

/-- A poller whose polls keep to the monitor does. -/
theorem Watched.step (h : Watched M rely m₀ R s)
    (hpoll : (StateBridge.getAndCompareRoots env.feeType).run.outcome M rely
      (fun _ m => m = m₀) m₀)
    (hR : ∀ m x asked, R m asked → M.allows m x.1 → R (M.next m x.1 x.2) (x :: asked))
    {a : Action} (hrely : ∀ x, a = .answer x → rely x.1 x.2) :
    Watched M rely m₀ R (s.step env a) := by
  obtain ⟨m, hout, hasked⟩ := h
  cases a with
  | chain b => exact ⟨m, hout, hasked⟩
  | poll =>
      simp only [Watch.step]
      split
      · -- the poll before ended in the state it began in
        rename_i result hret
        rw [hret] at hout
        obtain rfl : m = m₀ := hout
        exact ⟨m, hpoll, hasked⟩
      · exact ⟨m, hout, hasked⟩
  | answer x =>
      simp only [Watch.step]
      split
      · rename_i poll hreply
        obtain ⟨hallowed, hnext⟩ := outcome_of_reply? hout hreply (hrely x rfl)
        exact ⟨_, hnext, hR m x s.asked hasked hallowed⟩
      · exact ⟨m, hout, hasked⟩
  | broadcast =>
      simp only [Watch.step]
      split <;> exact ⟨m, hout, hasked⟩
  | mine i =>
      simp only [Watch.step]
      split <;> exact ⟨m, hout, hasked⟩

end Monitored

/-! ### Polls that find the chains apart -/

/-- L1 answers the root, L2 answers something else, and its message does not
run. -/
def Apart (root : U256) : (q : PollRequest) → PollResponse q → Prop
  | .getL1RootU256, .ok l1Root => l1Root = root
  | .latestRoot, response => response = .error none
      ∨ ∃ self : WorldID.Storage, self.latestRoot ≠ root ∧ response = latestRootCall self
  | .estimateMessagingFee rootAsFelts, .ok _ => rootAsFelts ≠ intoFelt root
  | _, _ => True

/-- Counts the submissions that are owed: one for each answer of L2. -/
def owing : Monitor PollRequest PollResponse Nat where
  allows n
    | .propagateRootWithRetry _ => 0 < n
    | _ => True
  next n
    | .latestRoot, response => if response = .error none then n else n + 1
    | .propagateRootWithRetry _, _ => n - 1
    | _, _ => n

/-- Allows no submission. -/
def refusing : Monitor PollRequest PollResponse Unit where
  allows _
    | .propagateRootWithRetry _ => False
    | _ => True
  next _ _ _ := ()

theorem latestRootCall_ne (self : WorldID.Storage) : latestRootCall self ≠ .error none := by
  rw [latestRootCall]
  split <;> simp

/-- The poll from the two roots on, when L2 has another one than L1. -/
theorem afterFetch_apart {root : U256} (hroot : root ≠ 0) {self : WorldID.Storage}
    (hself : self.latestRoot ≠ root) (feeType : Fee) :
    StateBridge.afterFetch feeType (fetchRoots root (latestRootCall self))
      = call (.cacheInsert root) fun _ =>
          (StateBridge.propagate feeType (intoFelt root)).run := by
  rw [fetchRoots_latestRootCall hroot]
  by_cases hz : self.latestRoot = 0
  · rw [if_pos hz]
    rfl
  · rw [if_neg hz]
    have hsync : synced root (.root self.latestRoot) = false :=
      decide_eq_false fun heq => hself heq.symm
    simp only [StateBridge.afterFetch, hsync, Bool.false_eq_true, if_false]

/-- A poll up to the two roots: it fails, or goes on with what it read. -/
theorem outcome_reads {σ : Type} {M : Monitor PollRequest PollResponse σ}
    {rely : (q : PollRequest) → PollResponse q → Prop}
    {post : Option (Except PollError Unit) → σ → Prop} {m : σ} (feeType : Fee)
    (hl1 : M.allows m .getL1RootU256)
    (hfail : ∀ failure, post none (M.next m .getL1RootU256 (.error failure))
      ∧ ∀ e, post (some (.error e)) (M.next m .getL1RootU256 (.error failure)))
    (hl2 : ∀ root, M.allows (M.next m .getL1RootU256 (.ok root)) .latestRoot)
    (hrest : ∀ root response, rely .getL1RootU256 (.ok root) → rely .latestRoot response →
      (StateBridge.afterFetch feeType (fetchRoots root response)).outcome M rely post
        (M.next (M.next m .getL1RootU256 (.ok root)) .latestRoot response)) :
    (StateBridge.getAndCompareRoots feeType).run.outcome M rely post m := by
  rw [StateBridge.getAndCompareRoots_run]
  refine ⟨hl1, fun l1Root hl1Root => ?_⟩
  cases l1Root with
  | error failure =>
      cases failure with
      | error display => exact (hfail _).2 _
      | panic message => exact (hfail _).1
  | ok root => exact ⟨hl2 root, fun response hresponse => hrest root response hl1Root hresponse⟩

/-- Unless the fee is estimated, a poll that L2 answers submits once. -/
theorem poll_owing {root : U256} (hroot : root ≠ 0) {feeType : Fee} (hfee : feeType ≠ .estimate) :
    (StateBridge.getAndCompareRoots feeType).run.outcome owing (Apart root)
      (fun _ n => n = 0) 0 := by
  refine outcome_reads feeType trivial (fun _ => ⟨rfl, fun _ => rfl⟩) (fun _ => trivial) ?_
  intro l1Root response hl1Root hresponse
  obtain rfl : l1Root = root := hl1Root
  rcases hresponse with rfl | ⟨self, hself, rfl⟩
  · rfl
  · rw [afterFetch_apart hroot hself]
    have howed : owing.next 0 .latestRoot (latestRootCall self) = 1 := if_neg (latestRootCall_ne self)
    show (call (.cacheInsert l1Root) _ : PollTask _).outcome owing (Apart l1Root) _
      (owing.next 0 .latestRoot (latestRootCall self))
    rw [howed]
    refine ⟨trivial, fun _ _ => ?_⟩
    cases feeType with
    | estimate => exact absurd rfl hfee
    | default => exact ⟨Nat.one_pos, fun _ _ => rfl⟩
    | noFee => exact ⟨Nat.one_pos, fun _ _ => rfl⟩

/-- If the fee is estimated, no such poll submits. -/
theorem poll_refusing {root : U256} (hroot : root ≠ 0) :
    (StateBridge.getAndCompareRoots .estimate).run.outcome refusing (Apart root)
      (fun _ m => m = ()) () := by
  refine outcome_reads .estimate trivial (fun _ => ⟨rfl, fun _ => rfl⟩) (fun _ => trivial) ?_
  intro l1Root response hl1Root hresponse
  obtain rfl : l1Root = root := hl1Root
  rcases hresponse with rfl | ⟨self, hself, rfl⟩
  · rfl
  · rw [afterFetch_apart hroot hself]
    refine ⟨trivial, fun _ _ => ⟨trivial, fun estimated hestimated => ?_⟩⟩
    cases estimated with
    | error e => rfl
    | ok fee => exact absurd rfl hestimated

/-! ### Polls that find the chains in step -/

/-- Both chains answer the root. -/
def Together (root : U256) : (q : PollRequest) → PollResponse q → Prop
  | .getL1RootU256, .ok l1Root => l1Root = root
  | .latestRoot, response => response = .error none
      ∨ ∃ self : WorldID.Storage, self.latestRoot = root ∧ response = latestRootCall self
  | _, _ => True

/-- Allows the two reads only. -/
def reading : Monitor PollRequest PollResponse Unit where
  allows _ q := q = .getL1RootU256 ∨ q = .latestRoot
  next _ _ _ := ()

/-- The poll from the two roots on, when they are the same. -/
theorem afterFetch_together {root : U256} (hroot : root ≠ 0) {self : WorldID.Storage}
    (hself : self.latestRoot = root) (feeType : Fee) :
    StateBridge.afterFetch feeType (fetchRoots root (latestRootCall self)) = .ret (.ok ()) := by
  subst hself
  rw [fetchRoots_latestRootCall hroot, if_neg hroot]
  have hsync : synced self.latestRoot (.root self.latestRoot) = true := decide_eq_true rfl
  simp only [StateBridge.afterFetch, hsync, if_true]

theorem poll_reading {root : U256} (hroot : root ≠ 0) (feeType : Fee) :
    (StateBridge.getAndCompareRoots feeType).run.outcome reading (Together root)
      (fun _ m => m = ()) () := by
  refine outcome_reads feeType (.inl rfl) (fun _ => ⟨rfl, fun _ => rfl⟩) (fun _ => .inr rfl) ?_
  intro l1Root response hl1Root hresponse
  obtain rfl : l1Root = root := hl1Root
  rcases hresponse with rfl | ⟨self, hself, rfl⟩
  · rfl
  · rw [afterFetch_together hroot hself]
    rfl

/-! ## A root that L2 left behind -/

/-- The contract had the root, and its latest root is another one. -/
def Passed (root : U256) (c : Chain) : Prop :=
  c.storage.worldID.rootHistory root ≠ 0 ∧ c.storage.worldID.latestRoot ≠ root

/-- No message makes the root the latest one again. -/
theorem Passed.deliver {root : U256} {c : Chain} (h : Passed root c) (d : Delivery) :
    Passed root (c.deliver d) := by
  obtain ⟨hknown, hlatest⟩ := h
  refine ⟨?_, ?_⟩
  · rw [Chain.rootHistory_deliver hknown]
    exact hknown
  · rcases Chain.deliver_cases c d with ⟨hsame, -⟩ | ⟨call, hacc, hnext⟩
    · rw [hsame]
      exact hlatest
    · rw [hnext]
      cases call with
      | receiveRoot r =>
          -- an accepted root is new, so it is not the one left behind
          intro heq
          obtain rfl : r = root := heq
          exact hknown hacc.guard
      | _ => exact hlatest

/-- The root was left behind by L2. -/
def LeftBehind (root : U256) (s : Watch) : Prop :=
  ∃ c, s.chains.worldID = some c ∧ Passed root c

theorem LeftBehind.step {root : U256} (h : LeftBehind root s) (a : Action) :
    LeftBehind root (s.step env a) := by
  rcases chains_step env s a with hsame | ⟨b, -, hnext⟩
  · rw [LeftBehind, hsame]
    exact h
  · rw [LeftBehind, hnext]
    exact System.step_of_deliver h (fun c d hc => hc.deliver d) b

/-- Truthful answers then find the chains apart. -/
theorem LeftBehind.apart {root : U256} (h : LeftBehind root s) (hroot : AtRoot env root s)
    {x : Exchange PollRequest PollResponse} (hx : Truthful env s.chains x) :
    Apart root x.1 x.2 := by
  obtain ⟨c, hc, hknown, hlatest⟩ := h
  obtain ⟨q, a⟩ := x
  cases q with
  | getL1RootU256 =>
      cases a with
      | error failure => trivial
      | ok l1Root => exact Option.some.inj (Eq.trans (Eq.symm hx) hroot)
  | latestRoot =>
      rcases hx with hfails | ⟨c', hc', hresponse⟩
      · exact .inl hfails
      · rw [hc] at hc'
        obtain rfl := Option.some.inj hc'
        exact .inr ⟨_, hlatest, hresponse⟩
  | estimateMessagingFee rootAsFelts =>
      cases a with
      | error e => trivial
      | ok fee =>
          obtain ⟨c', now, hc', haccepted⟩ := hx
          intro hfelts
          rw [hc] at hc'
          obtain rfl := Option.some.inj hc'
          rw [hfelts, accepted_buildMsgFromL1_iff] at haccepted
          exact hknown haccepted.2
  | cacheInsert _ => trivial
  | propagateRootWithRetry _ => trivial

/-- In the run of a poller that was started with L2 past the root: as many
submissions as L2 answered polls, but for those owed by the poll in progress;
and none at all if the fee is estimated. -/
structure Circling (env : Setting) (root : U256) (s : Watch) : Prop where
  behind : LeftBehind root s
  pays : env.feeType ≠ .estimate → Watched owing (Apart root) 0
    (fun n asked => asked.countP isTold = asked.countP isSubmission + n) s
  refuses : env.feeType = .estimate → Watched refusing (Apart root) ()
    (fun _ asked => asked.countP isSubmission = 0) s

theorem circling_start {root : U256} {chains : System}
    (h : ∃ c, chains.worldID = some c ∧ Passed root c) : Circling env root (start chains) where
  behind := h
  pays _ := ⟨0, rfl, rfl⟩
  refuses _ := ⟨(), rfl, rfl⟩

theorem Circling.step {root : U256} (hne : root ≠ 0) (h : Circling env root s) {a : Action}
    (hhonest : Honest env s a) (hroot : AtRoot env root s) : Circling env root (s.step env a) := by
  have hrely : ∀ x, a = .answer x → Apart root x.1 x.2 := by
    intro x hx
    subst hx
    exact h.behind.apart hroot hhonest
  refine ⟨h.behind.step a, fun hfee => ?_, fun hfee => ?_⟩
  · refine (h.pays hfee).step (poll_owing hne hfee) (fun n x asked hcount hallowed => ?_) hrely
    obtain ⟨q, response⟩ := x
    cases q with
    | latestRoot =>
        by_cases hfails : response = .error none
        · simp [owing, isTold, isSubmission, hfails, hcount]
        · simp [owing, isTold, isSubmission, hfails, hcount]
          omega
    | propagateRootWithRetry value =>
        have hpos : 0 < n := hallowed
        simp only [owing, isTold, isSubmission, List.countP_cons, hcount]
        simp
        omega
    | _ => simpa [owing, isTold, isSubmission] using hcount
  · have hpoll : (StateBridge.getAndCompareRoots env.feeType).run.outcome refusing (Apart root)
        (fun _ m => m = ()) () := by
      rw [hfee]
      exact poll_refusing hne
    refine (h.refuses hfee).step hpoll (fun m x asked hcount hallowed => ?_) hrely
    obtain ⟨q, response⟩ := x
    cases q with
    | propagateRootWithRetry value => exact hallowed.elim
    | _ => simpa [isSubmission] using hcount

end Watch

open Watch in
/-- **A root left behind is paid for at every poll**: from a state in which L2
had the root of L1 and has another one as its latest, whatever happens on the
chains while L1 keeps the root, it never becomes the latest one on L2. Every
poll that L2 answers ends in a submission, one for each, unless the fee is
estimated; then none ever submits. -/
theorem left_behind_for_ever (env : Watch.Setting) {chains : System} {root : U256} {c : Chain}
    (hne : root ≠ 0) (hc : chains.worldID = some c)
    (hknown : c.storage.worldID.rootHistory root ≠ 0) (hpast : c.storage.worldID.latestRoot ≠ root)
    (as : List Watch.Action)
    (hrun : Along (step env) (fun s a => Honest env s a ∧ AtRoot env root s) (start chains) as) :
    let s := run (step env) (start chains) as
    (∃ c', s.chains.worldID = some c' ∧ c'.storage.worldID.latestRoot ≠ root)
      ∧ (env.feeType ≠ .estimate → ∀ result, s.poll = .ret result →
          s.asked.countP isSubmission = s.asked.countP isTold)
      ∧ (env.feeType = .estimate → s.asked.countP isSubmission = 0) := by
  intro s
  have h : Circling env root s :=
    run_invariant (step env) (fun _ _ h ha => h.step hne ha.1 ha.2)
      (circling_start ⟨c, hc, hknown, hpast⟩) hrun
  refine ⟨?_, fun hfee result hret => ?_, fun hfee => ?_⟩
  · obtain ⟨c', hc', -, hlatest⟩ := h.behind
    exact ⟨c', hc', hlatest⟩
  · obtain ⟨n, hout, hcount⟩ := h.pays hfee
    rw [hret] at hout
    obtain rfl : n = 0 := hout
    exact hcount.symm
  · obtain ⟨m, -, hcount⟩ := h.refuses hfee
    exact hcount

namespace Watch

def sampleSetting : Setting := ⟨sampleBook, 2, 9, .default⟩

/-- The roots `5` and `6` arrived on L2, and L1 is back at `5`. -/
def sampleReturned : System :=
  run (System.step System.sampleAccounts) System.sampleStart (System.sampleReturn.take 7)

/-- A poll whose propagation is reported as done. -/
def samplePoll : List Action :=
  [.poll, .answer ⟨.getL1RootU256, .ok 5⟩, .answer ⟨.latestRoot, .ok [6, 0]⟩,
    .answer ⟨.cacheInsert 5, ()⟩, .answer ⟨.propagateRootWithRetry 1000000000, .ok ()⟩]

theorem left_behind_for_ever_sample :
    (run (step sampleSetting) (start sampleReturned)
        (samplePoll ++ samplePoll)).asked.countP isSubmission
      = (run (step sampleSetting) (start sampleReturned)
        (samplePoll ++ samplePoll)).asked.countP isTold := by
  have hhonest : Along (step sampleSetting)
      (fun s a => Honest sampleSetting s a ∧ AtRoot sampleSetting 5 s) (start sampleReturned)
      (samplePoll ++ samplePoll) := by
    have hl2 : Truthful sampleSetting sampleReturned ⟨.latestRoot, .ok [6, 0]⟩ :=
      .inr ⟨_, rfl, rfl⟩
    exact ⟨⟨trivial, rfl⟩, ⟨rfl, rfl⟩, ⟨hl2, rfl⟩, ⟨trivial, rfl⟩, ⟨trivial, rfl⟩,
      ⟨trivial, rfl⟩, ⟨rfl, rfl⟩, ⟨hl2, rfl⟩, ⟨trivial, rfl⟩, ⟨trivial, rfl⟩, trivial⟩
  have hworldID : sampleReturned.worldID = some _ := rfl
  exact (left_behind_for_ever sampleSetting (by decide) hworldID (by decide) (by decide)
    (samplePoll ++ samplePoll) hhonest).2.1 (by decide) (.ok ()) rfl

end Watch

/-! ## A root that both chains have -/

namespace Watch

/-- L2 is at `c` for good: every root the bridge ever sent is in its history. -/
structure Settled (env : Setting) (c : Chain) (s : Watch) : Prop where
  worldID : s.chains.worldID = some c
  sourced : System.Sourced env.book.accounts
    (fun root => c.storage.worldID.rootHistory root ≠ 0) s.chains

/-- StarkWorldID is not handed over, and the bridge reads the root L1 has. -/
def Keeps (env : Setting) (root : U256) (s : Watch) : Action → Prop
  | .chain a => System.KeepsOwner env.book.accounts s.chains a
      ∧ s.chains.world.latestRoot s.chains.bridge.worldIDIdentityManager = some root
  | .mine _ => s.chains.world.latestRoot s.chains.bridge.worldIDIdentityManager = some root
  | _ => True

variable {env : Setting} {s : Watch} {c : Chain}

/-- Every message is refused. -/
theorem Settled.receive {chains : System} (hbefore : chains.worldID = some c)
    (hsourced : System.Sourced env.book.accounts
      (fun root => c.storage.worldID.rootHistory root ≠ 0) chains)
    {log : L1.LogMessageToL2} (hlog : log ∈ chains.channel.sent) (timestamp : U64) :
    System.receive env.book.accounts c log timestamp = c := by
  cases hroot : System.rootOf env.book.accounts log with
  | none =>
      exact System.receive_other (hsourced.worldID c hbefore).owner (hsourced.sent log hlog) hroot
        timestamp
  | some root =>
      refine System.receive_known hroot ?_ timestamp
      obtain ⟨⟨hfrom, -⟩, m, hm, hdecode⟩ := System.rootOf_eq_some.mp hroot
      obtain ⟨root', hknown, hcall⟩ := (hsourced.sent log hlog hfrom).decode hm hdecode
      obtain rfl := StarkWorldID.HandlerCall.receiveRoot.inj hcall
      exact hknown

theorem Settled.step {root : U256} (h : Settled env c s)
    (hknown : c.storage.worldID.rootHistory root ≠ 0) {a : Action} (hkeeps : Keeps env root s a) :
    Settled env c (s.step env a) := by
  rcases chains_step env s a with hsame | ⟨b, hb, hnext⟩
  · exact ⟨by rw [hsame, h.worldID], by rw [hsame]; exact h.sourced⟩
  · obtain ⟨hkeep, hreads⟩ : System.KeepsOwner env.book.accounts s.chains b
        ∧ s.chains.world.latestRoot s.chains.bridge.worldIDIdentityManager = some root := by
      rcases hb with rfl | ⟨i, value, rfl, rfl⟩
      · exact hkeeps
      · exact ⟨trivial, hkeeps⟩
    constructor
    · rw [hnext]
      cases System.step_onL2 env.book.accounts s.chains b with
      | same hworld => exact hworld.trans h.worldID
      | deployed _ hbefore =>
          rw [h.worldID] at hbefore
          cases hbefore
      | delivered _ hbefore hlog _ hworld =>
          rw [h.worldID] at hbefore
          obtain rfl := Option.some.inj hbefore
          rw [hworld, Settled.receive h.worldID h.sourced (List.mem_of_getElem? hlog)]
    · rw [hnext]
      refine h.sourced.step hkeep fun root' hpropagates => ?_
      obtain ⟨msg, o, -, -, hroot'⟩ := hpropagates
      rw [hreads] at hroot'
      exact Option.some.inj hroot' ▸ hknown

/-- Truthful answers then are the root that both chains have. -/
theorem Settled.together {root : U256} (h : Settled env c s) (hroot : AtRoot env root s)
    (hlatest : c.storage.worldID.latestRoot = root) {x : Exchange PollRequest PollResponse}
    (hx : Truthful env s.chains x) : Together root x.1 x.2 := by
  obtain ⟨q, a⟩ := x
  cases q with
  | getL1RootU256 =>
      cases a with
      | error failure => trivial
      | ok l1Root => exact Option.some.inj (Eq.trans (Eq.symm hx) hroot)
  | latestRoot =>
      rcases hx with hfails | ⟨c', hc', hresponse⟩
      · exact .inl hfails
      · rw [h.worldID] at hc'
        obtain rfl := Option.some.inj hc'
        exact .inr ⟨_, hlatest, hresponse⟩
  | _ => trivial

end Watch

open Watch in
/-- **Once the chains are together the poller rests**: from a state in which
both have the root, StarkWorldID is the bridge's and knows every root the
bridge has sent, as long as L1 keeps the root and StarkWorldID is not handed
over, StarkWorldID stays exactly as it is, whoever calls the bridge and
whatever is delivered, and the poller asks for the two roots and for nothing
else. -/
theorem together_at_rest (env : Watch.Setting) {chains : System} {root : U256} {c : Chain}
    (hne : root ≠ 0) (hc : chains.worldID = some c)
    (hsourced : System.Sourced env.book.accounts
      (fun root => c.storage.worldID.rootHistory root ≠ 0) chains)
    (hknown : c.storage.worldID.rootHistory root ≠ 0) (hlatest : c.storage.worldID.latestRoot = root)
    (as : List Watch.Action)
    (hrun : Along (step env) (fun s a => Honest env s a ∧ AtRoot env root s ∧ Keeps env root s a)
      (start chains) as) :
    let s := run (step env) (start chains) as
    s.chains.worldID = some c
      ∧ ∀ x ∈ s.asked, x.1 = .getL1RootU256 ∨ x.1 = .latestRoot := by
  intro s
  have h : Settled env c s ∧ Watched reading (Together root) ()
      (fun _ asked => ∀ x ∈ asked, x.1 = .getL1RootU256 ∨ x.1 = .latestRoot) s := by
    refine run_invariant (step env)
      (I := fun s => Settled env c s ∧ Watched reading (Together root) ()
        (fun _ asked => ∀ x ∈ asked, x.1 = .getL1RootU256 ∨ x.1 = .latestRoot) s)
      ?_ ⟨⟨hc, hsourced⟩, (), rfl, fun x hx => absurd hx List.not_mem_nil⟩ hrun
    intro s a hs ha
    obtain ⟨hsettled, hwatched⟩ := hs
    obtain ⟨hhonest, hroot, hkeeps⟩ := ha
    refine ⟨hsettled.step hknown hkeeps, hwatched.step (poll_reading hne env.feeType) ?_ ?_⟩
    · intro m x asked hasked hallowed y hy
      rcases List.mem_cons.mp hy with rfl | hold
      · exact hallowed
      · exact hasked y hold
    · intro x hx
      subst hx
      exact hsettled.together hroot hlatest hhonest
  obtain ⟨hsettled, m, -, hasked⟩ := h
  exact ⟨hsettled.worldID, hasked⟩

namespace Watch

/-- The root `5` arrived on L2. -/
def sampleArrived : System :=
  run (System.step System.sampleAccounts) System.sampleStart (System.sampleReturn.take 3)

/-- Somebody calls the bridge between the two reads of a poll, and the message
is delivered. -/
theorem together_at_rest_sample :
    (run (step sampleSetting) (start sampleArrived)
        [.poll, .answer ⟨.getL1RootU256, .ok 5⟩, .chain (.call ⟨9, 10⟩ .propagateRoot),
          .chain (.deliver 1 101), .answer ⟨.latestRoot, .ok [5, 0]⟩]).chains.worldID
      = sampleArrived.worldID := by
  have hworldID : sampleArrived.worldID = some
      ⟨⟨⟨7⟩, ⟨20, WorldID.oneWeek, 5, Function.update (fun _ => 0) 5 100⟩⟩, [(100, .receiveRoot 5)],
        [.worldIDEvent (.rootAdded 5 100), .crossDomainOwnableEvent ⟨0, 7⟩]⟩ := rfl
  rw [hworldID]
  refine (together_at_rest sampleSetting (by decide) hworldID ⟨?_, ?_⟩ (by decide) rfl _ ?_).1
  · intro log hlog _
    obtain rfl := List.mem_singleton.mp hlog
    exact .inl ⟨5, by decide, rfl, rfl⟩
  · intro c hc
    obtain rfl := Option.some.inj (hworldID.symm.trans hc)
    exact ⟨rfl, fun root hroot => hroot, fun _ => by decide⟩
  · exact ⟨⟨trivial, rfl, trivial⟩, ⟨rfl, rfl, trivial⟩, ⟨trivial, rfl, trivial, rfl⟩,
      ⟨trivial, rfl, trivial, rfl⟩, ⟨.inr ⟨_, rfl, rfl⟩, rfl, trivial⟩, trivial⟩

end Watch

/-! ## What the poller can bring about -/

namespace Watch

/-- The poller acts, and messages are delivered; nobody else does anything. -/
def Alone : Action → Prop
  | .chain (.deliver _ _) => True
  | .chain _ => False
  | _ => True

/-- The parts fit together: the two contracts and the relayer are configured
for each other, and the bridge takes a fee the relayer may offer. -/
structure Ready (env : Setting) (chains : System) (root : U256) (c : Chain) : Prop where
  worldID : chains.worldID = some c
  owner : c.storage.crossDomainOwnable.l1Owner = env.book.bridgeL1
  bridge : env.book.bridgeL1 ≠ 0
  core : chains.bridge.starknetCoreContract = chains.world.coreAddress
  starkWorldID : chains.bridge.starkWorldIDAddress = env.book.accounts.worldID
  manager : chains.bridge.worldIDIdentityManager = env.identityManager
  latest : chains.world.latestRoot env.identityManager = some root
  pays : ∃ overallFee, L1.StarkStateBridge.Succeeds chains.bridge env.book.bridgeL1 chains.world
    ⟨env.wallet, feeToU256 (attachedFee overallFee env.feeType)⟩ .propagateRoot

variable {env : Setting} {s : Watch} {chains : System} {c : Chain} {root : U256}

/-- A poll up to its submission. -/
def toSubmission (env : Setting) (root : U256) (c : Chain) (overallFee : Felt252) :
    List (Exchange PollRequest PollResponse) :=
  [⟨.getL1RootU256, .ok root⟩, ⟨.latestRoot, latestRootCall c.storage.worldID⟩,
    ⟨.cacheInsert root, ()⟩]
    ++ if env.feeType = .estimate then [⟨.estimateMessagingFee (intoFelt root), .ok overallFee⟩]
      else []

variable (env) in
theorem performs_toSubmission (hne : root ≠ 0) (hlatest : c.storage.worldID.latestRoot ≠ root)
    (overallFee : Felt252) :
    ∃ k, Performs (StateBridge.getAndCompareRoots env.feeType).run
      (toSubmission env root c overallFee)
      (call (.propagateRootWithRetry (feeToU256 (attachedFee overallFee env.feeType))) k) := by
  have hreads : ∀ {tr p}, Performs (call (.cacheInsert root) fun _ =>
        (StateBridge.propagate env.feeType (intoFelt root)).run) tr p →
      Performs (StateBridge.getAndCompareRoots env.feeType).run
        (⟨.getL1RootU256, .ok root⟩ :: ⟨.latestRoot, latestRootCall c.storage.worldID⟩ :: tr) p := by
    intro tr p h
    rw [StateBridge.getAndCompareRoots_run]
    refine .step (.step ?_)
    rw [afterFetch_apart hne hlatest]
    exact h
  cases hfee : env.feeType with
  | estimate =>
      rw [hfee] at hreads
      rw [toSubmission, hfee, if_pos rfl]
      exact ⟨_, hreads (.step (.step (.done _)))⟩
  | default =>
      rw [hfee] at hreads
      rw [toSubmission, hfee, if_neg (by decide)]
      exact ⟨_, hreads (.step (.done _))⟩
  | noFee =>
      rw [hfee] at hreads
      rw [toSubmission, hfee, if_neg (by decide)]
      exact ⟨_, hreads (.step (.done _))⟩

/-- Answers move the poll on, and nothing else. -/
theorem run_answers {chains : System} {pool : List U256}
    {asked tr : List (Exchange PollRequest PollResponse)} {p p' : PollTask (Except PollError Unit)}
    (h : Performs p tr p') :
    run (step env) ⟨chains, p, asked, pool⟩ (tr.map .answer)
      = ⟨chains, p', tr.reverse ++ asked, pool⟩ := by
  induction h generalizing asked with
  | done p => rfl
  | @step q k a tr p h ih =>
      have hnext : step env ⟨chains, call q k, asked, pool⟩ (.answer ⟨q, a⟩)
          = ⟨chains, k a, ⟨q, a⟩ :: asked, pool⟩ := by
        simp only [step, reply?_call (⟨q, a⟩ : Exchange PollRequest PollResponse) k]
      rw [List.map_cons, run_cons, hnext, ih, List.reverse_cons, List.append_assoc]
      rfl

theorem along_answers {tr : List (Exchange PollRequest PollResponse)}
    (h : ∀ x ∈ tr, Truthful env s.chains x) :
    Along (step env) (fun s a => Honest env s a ∧ Alone a) s (tr.map .answer) := by
  induction tr generalizing s with
  | nil => trivial
  | cons x tr ih =>
      refine ⟨⟨h x List.mem_cons_self, trivial⟩, ih fun y hy => ?_⟩
      have hsame : (s.step env (.answer x)).chains = s.chains := by
        simp only [step]
        split <;> rfl
      rw [hsame]
      exact h y (List.mem_cons_of_mem x hy)

/-- What the poller does for a new root: a poll, its transaction, its message. -/
def resync (env : Setting) (chains : System) (root : U256) (c : Chain) (overallFee : Felt252)
    (timestamp : U64) : List Action :=
  .poll :: (toSubmission env root c overallFee).map .answer
    ++ [.broadcast, .mine 0, .chain (.deliver chains.channel.sent.length timestamp)]

theorem along_resync (h : Ready env chains root c) (hnew : c.storage.worldID.rootHistory root = 0)
    (overallFee : Felt252) (timestamp : U64) :
    Along (step env) (fun s a => Honest env s a ∧ Alone a) (start chains)
      (resync env chains root c overallFee timestamp) := by
  have hobeys : c.storage.Obeys env.book.bridgeL1.toFelt := System.obeys_bridge h.owner h.bridge
  have htruthful : ∀ x ∈ toSubmission env root c overallFee, Truthful env chains x := by
    intro x hx
    rcases List.mem_append.mp hx with hreads | hestimate
    · simp only [List.mem_cons, List.not_mem_nil, or_false] at hreads
      rcases hreads with rfl | rfl | rfl
      · exact h.latest
      · exact .inr ⟨c, h.worldID, rfl⟩
      · trivial
    · split at hestimate
      · obtain rfl := List.mem_singleton.mp hestimate
        exact ⟨c, timestamp, h.worldID, (accepted_buildMsgFromL1_iff _ root).mpr ⟨hobeys, hnew⟩⟩
      · cases hestimate
  exact (along_append (step env)).mpr ⟨⟨⟨trivial, trivial⟩, along_answers htruthful⟩,
    ⟨trivial, trivial⟩, ⟨trivial, trivial⟩, ⟨trivial, trivial⟩, trivial⟩

theorem run_resync (h : Ready env chains root c) (hne : root ≠ 0)
    (hlatest : c.storage.worldID.latestRoot ≠ root)
    (hnew : c.storage.worldID.rootHistory root = 0) {overallFee : Felt252}
    (hpays : L1.StarkStateBridge.Succeeds chains.bridge env.book.bridgeL1 chains.world
      ⟨env.wallet, feeToU256 (attachedFee overallFee env.feeType)⟩ .propagateRoot)
    (timestamp : U64) :
    ∃ c', (run (step env) (start chains)
        (resync env chains root c overallFee timestamp)).chains.worldID = some c'
      ∧ c'.storage.worldID.latestRoot = root := by
  obtain ⟨o, hexec⟩ := hpays
  have hcall : L1.StarkStateBridge.exec chains.bridge env.book.accounts.bridge chains.world
      ⟨env.wallet, feeToU256 (attachedFee overallFee env.feeType)⟩ .propagateRoot = .ok o := hexec
  obtain ⟨k, hperforms⟩ := performs_toSubmission env hne hlatest overallFee
  have hroot : chains.world.latestRoot chains.bridge.worldIDIdentityManager = some root := by
    rw [h.manager]
    exact h.latest
  obtain ⟨log, hlogs, hlog⟩ := System.propagateRoot_log hcall h.core h.starkWorldID hroot
  have hdelivered := System.worldID_call_deliver hcall hlogs h.worldID timestamp
  have hpoll : run (step env) (start chains)
      (.poll :: (toSubmission env root c overallFee).map .answer)
      = ⟨chains, call (.propagateRootWithRetry (feeToU256 (attachedFee overallFee env.feeType))) k,
        (toSubmission env root c overallFee).reverse ++ [], []⟩ := run_answers hperforms
  refine ⟨System.receive env.book.accounts c log timestamp, ?_, ?_⟩
  · rw [resync, run_append, hpoll]
    exact hdelivered
  · rw [System.receive_fresh hlog h.owner h.bridge hnew]
    rfl

end Watch

open Watch in
/-- **When the poller can bring the chains together on its own**: for a relayer
and two contracts that fit together, there are polls, inclusions and
deliveries after which L2 has the root of L1, if and only if L2 has it already
or never had it. -/
theorem resync_iff (env : Watch.Setting) {chains : System} {root : U256} {c : Chain}
    (hready : Ready env chains root c) (hne : root ≠ 0) :
    (∃ as, Along (step env) (fun s a => Honest env s a ∧ Alone a) (start chains) as
        ∧ ∃ c', (run (step env) (start chains) as).chains.worldID = some c'
          ∧ c'.storage.worldID.latestRoot = root)
      ↔ c.storage.worldID.latestRoot = root ∨ c.storage.worldID.rootHistory root = 0 := by
  constructor
  · intro h
    obtain ⟨as, -, c', hc', hlatest⟩ := h
    by_contra hnot
    obtain ⟨hpast, hknown⟩ := not_or.mp hnot
    -- otherwise L2 left the root behind, and does so in every state
    have hbehind : LeftBehind root (run (step env) (start chains) as) :=
      run_invariant (step env) (P := fun _ _ => True) (fun _ a h _ => h.step a)
        ⟨c, hready.worldID, hknown, hpast⟩ (along_true _ _ as)
    obtain ⟨c'', hc'', -, hpast'⟩ := hbehind
    rw [hc'] at hc''
    obtain rfl := Option.some.inj hc''
    exact hpast' hlatest
  · intro h
    by_cases hlatest : c.storage.worldID.latestRoot = root
    · exact ⟨[], trivial, c, hready.worldID, hlatest⟩
    · have hnew := h.resolve_left hlatest
      obtain ⟨overallFee, hpays⟩ := hready.pays
      exact ⟨_, along_resync hready hnew overallFee 1,
        run_resync hready hne hlatest hnew hpays 1⟩

namespace Watch

theorem resync_iff_sample :
    ∃ as, Along (step sampleSetting) (fun s a => Honest sampleSetting s a ∧ Alone a)
        (start System.sampleDeployed) as
      ∧ ∃ c', (run (step sampleSetting) (start System.sampleDeployed) as).chains.worldID = some c'
        ∧ c'.storage.worldID.latestRoot = 5 := by
  have hready : Ready sampleSetting System.sampleDeployed 5 Chain.sample :=
    ⟨rfl, rfl, by decide, rfl, rfl, rfl, rfl, 0, _, rfl⟩
  exact (resync_iff sampleSetting hready (by decide)).mpr (.inr rfl)

end Watch

end WorldIDBridge
