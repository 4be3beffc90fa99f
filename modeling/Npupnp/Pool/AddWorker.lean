import Npupnp.Pool.Accounting

namespace Npupnp.Pool.AddWorker

open Machine Accounting

def InAddWorker (jobs : Int) (p : Proc) : Prop :=
  ∃ threads, 0 ≤ threads ∧
    (p = .waitPending (.addWorker jobs threads) ∨ p = .waitStarted (.addWorker jobs threads))

/-- Attributes `start` and `setAttr` take as they are, under which the loop test of `addWorker`
holds at every count and `createWorker` never returns `EMAXTHREADS`. -/
def Unbounded (a : Attr) : Prop :=
  a.jobsPerThread ≤ 0 ∧ a.maxThreads = infiniteThreads

variable {s s' : Pool} {i : Input} {t u : Nat} {jobs : Int}

theorem wantsWorker_of_unbounded {threads : Int} (hu : Unbounded s.attr) (hj : 0 ≤ jobs)
    (hn : 0 ≤ threads) : wantsWorker s jobs threads = true := by
  have := Int.tdiv_nonneg hj hn
  simp only [wantsWorker, Bool.or_eq_true, decide_eq_true_eq]
  exact .inl (.inr (by have := hu.1; omega))

theorem createWorkerCheck_of_infinite {k : Caller} (hm : s.attr.maxThreads = infiniteThreads) :
    createWorkerCheck s t k = { s with
      threads := Function.update (Function.update s.threads s.spawned .starting) t (.waitStarted k)
      spawned := s.spawned + 1
      pendingWorkerThreadStart := 1 } := by
  simp [createWorkerCheck, hm]

theorem stepProc_waitStarted {n : Int} (hu : Unbounded s.attr) (hj : 0 ≤ jobs) (hn : 0 ≤ n)
    (hp : s.threads t = .waitStarted (.addWorker jobs n)) (h0 : s.pendingWorkerThreadStart = 0) :
    stepProc i t s = some (createWorkerCheck s t (.addWorker jobs (n + 1))) := by
  simp only [Machine.stepProc, hp, h0, if_true, createDone,
    wantsWorker_of_unbounded hu hj (by omega : 0 ≤ n + 1), createWorker, ne_eq,
    not_true_eq_false, if_false]

theorem InAddWorker.lt_spawned (hb : Books s) (h : InAddWorker jobs (s.threads t)) :
    t < s.spawned := by
  by_contra hc
  obtain ⟨n, -, h | h⟩ := h <;> rw [hb.fresh t (by omega)] at h <;> cases h

theorem stepProc_inAddWorker (hu : Unbounded s.attr) (hj : 0 ≤ jobs)
    (hp : InAddWorker jobs (s.threads t)) (ht : t < s.spawned) (h : stepProc i t s = some s') :
    InAddWorker jobs (s'.threads t) ∧ s'.spawned = s.spawned + 1 ∧
      s'.threads s.spawned = .starting := by
  have hne : s.spawned ≠ t := (Nat.ne_of_lt ht).symm
  obtain ⟨n, hn, hp | hp⟩ := hp
  · simp only [Machine.stepProc, hp] at h
    split_ifs at h
    cases h
    rw [createWorkerCheck_of_infinite hu.2]
    exact ⟨⟨n, hn, .inr (by simp)⟩, rfl, by simp [Function.update_noteq hne]⟩
  · have h0 : s.pendingWorkerThreadStart = 0 := by
      by_contra h0
      simp [Machine.stepProc, hp, h0] at h
    rw [stepProc_waitStarted hu hj hn hp h0, Option.some.injEq] at h
    subst h
    rw [createWorkerCheck_of_infinite hu.2]
    exact ⟨⟨n + 1, by omega, .inr (by simp)⟩, rfl, by simp [Function.update_noteq hne]⟩

theorem threads_of_loopStep {s₂ r : Pool} {p : Int} (h : LoopStep s₂ r t p)
    (hs : s₂.threads = s.threads) : ∃ q, r.threads = Function.update s.threads t q := by
  rw [← hs]
  obtain ⟨-, -, -, ⟨-, -, -, h⟩ | ⟨-, -, -, h⟩ | ⟨j, q, -, -, -, -, h⟩⟩ := h
  exacts [⟨_, h⟩, ⟨_, h⟩, ⟨_, h⟩]

theorem workerStep_threads (hc : isCaller (s.threads u) = false) (h : stepProc i u s = some s') :
    ∃ p, s'.threads = Function.update s.threads u p := by
  unfold Machine.stepProc at h
  cases hp : s.threads u <;> rw [hp] at h hc <;>
    simp only [isCaller, Option.some.injEq, reduceCtorEq, Bool.true_eq_false] at hc h <;> subst h
  case starting => exact ⟨_, rfl⟩
  case top job q =>
    unfold Machine.workerTop
    cases job <;> dsimp only <;> split_ifs <;>
      exact threads_of_loopStep (loopStep_workerLoop _ u false q) rfl
  case waiting q => exact threads_of_loopStep (loopStep_workerLoop s u i.timedOut q) rfl
  case running j q => exact ⟨_, rfl⟩

theorem stepProc_threads (hb : Books s) (h : stepProc i u s = some s') :
    ∃ p, s'.threads = Function.update s.threads u p ∨
      s'.threads = Function.update (Function.update s.threads s.spawned .starting) u p := by
  by_cases hc : isCaller (s.threads u) = true
  · obtain ⟨-, -, -, p, -, -, h⟩ := callerStep_stepProc hc (hb.divisor u) hb.threads_nonneg h
    rcases h with ⟨h, -⟩ | ⟨-, -, h, -⟩
    exacts [⟨p, .inl h⟩, ⟨p, .inr h⟩]
  · exact (workerStep_threads (by simpa using hc) h).imp fun _ ↦ .inl

theorem stepProc_other (hb : Books s) (h : stepProc i u s = some s') (hut : t ≠ u)
    (ht : t < s.spawned) : s'.threads t = s.threads t := by
  obtain ⟨p, hp | hp⟩ := stepProc_threads hb h <;> rw [hp] <;>
    simp [Function.update_noteq hut, Function.update_noteq (Nat.ne_of_lt ht)]

theorem inAddWorker_step (hb : Books s) (hu : Unbounded s.attr) (hj : 0 ≤ jobs)
    (hp : InAddWorker jobs (s.threads t)) (h : Step s s') : InAddWorker jobs (s'.threads t) := by
  have ht := hp.lt_spawned hb
  cases h with
  | call p _ => simpa only [Pool.spawn, Function.update_noteq (Nat.ne_of_lt ht)] using hp
  | tick d => exact hp
  | run v i h =>
    by_cases hv : v = t
    · subst hv
      exact (stepProc_inAddWorker hu hj hp ht h).1
    · rwa [stepProc_other hb h (Ne.symm hv) ht]

theorem spawned_of_moved (hb : Books s) (hu : Unbounded s.attr) (hj : 0 ≤ jobs)
    (hp : InAddWorker jobs (s.threads t)) (h : Step s s') (hm : s'.threads t ≠ s.threads t) :
    s'.spawned = s.spawned + 1 := by
  have ht := hp.lt_spawned hb
  cases h with
  | call p _ => simp [Pool.spawn, Function.update_noteq (Nat.ne_of_lt ht)] at hm
  | tick d => exact absurd rfl hm
  | run v i h =>
    by_cases hv : v = t
    · subst hv
      exact (stepProc_inAddWorker hu hj hp ht h).2.1
    · exact absurd (stepProc_other hb h (Ne.symm hv) ht) hm

theorem inAddWorker_run {attr : Attr} (r : Run attr) {a : Nat} (hj : 0 ≤ jobs)
    (ha : InAddWorker jobs ((r.state a).threads t))
    (hu : ∀ k, a ≤ k → Unbounded (r.state k).attr) :
    ∀ k, a ≤ k → InAddWorker jobs ((r.state k).threads t) := by
  intro k hk
  induction k, hk using Nat.le_induction with
  | base => exact ha
  | succ k hk ih =>
    rcases r.step k with h | h
    · exact inAddWorker_step (books_run r k) (hu k hk) hj ih h
    · rwa [h]

theorem isStarting_iff {p : Proc} : isStarting p = true ↔ p = .starting := by
  cases p <;> simp [isStarting]

theorem starting_unique (hb : Books s) (hp : s.pendingWorkerThreadStart ≠ 0) :
    ∃ u, s.threads u = .starting ∧ ∀ v, s.threads v = .starting → v = u := by
  have h1 : count s isStarting = 1 := by have := hb.pending; have := hb.pendingLe; omega
  obtain ⟨u, hu, hs⟩ := List.countP_pos_iff.1 (show 0 < count s isStarting by omega)
  have hu' := List.mem_range.1 hu
  refine ⟨u, isStarting_iff.1 hs, fun v hv ↦ ?_⟩
  by_contra hne
  have hv' : v < s.spawned := by
    by_contra hc
    rw [hb.fresh v (by omega)] at hv
    cases hv
  have hcount := count_setProc hu' .idle isStarting
  have hpos : 0 < count (s.setProc u .idle) isStarting :=
    List.countP_pos_iff.2 ⟨v, List.mem_range.2 hv', by simp [Function.update_noteq hne, hv, isStarting]⟩
  simp only [hs, if_true, show isStarting .idle = false from rfl, Bool.false_eq_true,
    if_false] at hcount
  omega

/-- `createWorker` cannot deadlock on its waits: while a start is pending exactly one thread is
starting, its first section can run and clear the flag, and then every waiting caller can go on. -/
theorem worker_start_in_flight {attr : Attr} (r : Run attr) {k : Nat}
    (hp : (r.state k).pendingWorkerThreadStart ≠ 0) :
    ∃ u, (r.state k).threads u = .starting ∧ (∀ v, (r.state k).threads v = .starting → v = u) ∧
      ∀ i, ∃ s', stepProc i u (r.state k) = some s' ∧ s'.pendingWorkerThreadStart = 0 ∧
        ∀ t c, ((r.state k).threads t = .waitPending c ∨ (r.state k).threads t = .waitStarted c) →
          (stepProc i t s').isSome := by
  obtain ⟨u, hu, huniq⟩ := starting_unique (books_run r k) hp
  refine ⟨u, hu, huniq, fun i ↦ ⟨_, by rw [Machine.stepProc, hu], by rfl, fun t c ht ↦ ?_⟩⟩
  have htu : t ≠ u := by
    rintro rfl
    rcases ht with h | h <;> rw [hu] at h <;> cases h
  rcases ht with h | h <;> simp [Machine.stepProc, Function.update_noteq htu, h]

def firstStartRun : Run ⟨1, 2, 100, 10, 10, 500⟩ :=
  Run.ofExec _ [.run 0 ⟨false, true⟩] rfl

theorem worker_start_in_flight_constructor :
    (firstStartRun.state 1).pendingWorkerThreadStart ≠ 0 ∧
      ∃ u, (firstStartRun.state 1).threads u = .starting ∧
        (∀ v, (firstStartRun.state 1).threads v = .starting → v = u) ∧
        ∀ i, ∃ s', stepProc i u (firstStartRun.state 1) = some s' ∧
          s'.pendingWorkerThreadStart = 0 ∧
          ∀ t c, ((firstStartRun.state 1).threads t = .waitPending c ∨
            (firstStartRun.state 1).threads t = .waitStarted c) → (stepProc i t s').isSome :=
  ⟨by decide, worker_start_in_flight firstStartRun (by decide)⟩

structure SpinPre (attr : Attr) (n : Nat) (s : Pool) : Prop where
  caller : s.threads 1 = .waitStarted (.addWorker 1 n)
  worker : s.threads (n + 2) = .starting
  spawned : s.spawned = n + 3
  pending : s.pendingWorkerThreadStart = 1
  total : s.totalThreads = n
  attr : s.attr = attr
  queued : queuedJobs s = 1
  persistent : s.persistentJob = none

structure SpinPost (attr : Attr) (n : Nat) (s : Pool) : Prop where
  caller : s.threads 1 = .waitStarted (.addWorker 1 n)
  spawned : s.spawned = n + 3
  pending : s.pendingWorkerThreadStart = 0
  total : s.totalThreads = n + 1
  attr : s.attr = attr
  queued : queuedJobs s = 1
  persistent : s.persistentJob = none

theorem SpinPre.start {attr : Attr} {n : Nat} (h : SpinPre attr n s) :
    ∃ s', stepProc i (n + 2) s = some s' ∧ SpinPost attr n s' := by
  simp only [Machine.stepProc, h.worker, Option.some.injEq, exists_eq_left']
  refine ⟨?_, h.spawned, rfl, by simp [h.total], h.attr, ?_, h.persistent⟩
  · simpa [Function.update_noteq (show 1 ≠ n + 2 by omega)] using h.caller
  · simpa [queuedJobs] using h.queued

theorem SpinPost.next {attr : Attr} {n : Nat} (hu : Unbounded attr) (h : SpinPost attr n s) :
    ∃ s', stepProc i 1 s = some s' ∧ SpinPre attr (n + 1) s' := by
  have hu' : Unbounded s.attr := h.attr ▸ hu
  refine ⟨_, stepProc_waitStarted hu' (by decide) (by omega) h.caller h.pending, ?_⟩
  rw [createWorkerCheck_of_infinite hu'.2]
  refine ⟨by simp, ?_, by simp [h.spawned], rfl, by simp [h.total], h.attr, ?_, h.persistent⟩
  · simp [h.spawned, Function.update_noteq (show n + 1 + 2 ≠ 1 by omega)]
  · simpa [queuedJobs] using h.queued

def spinThread (k : Nat) : Nat :=
  if k % 2 = 0 then 1 else k / 2 + 2

def spinTrace (attr : Attr) : Nat → Pool
  | 0 => Pool.initial attr
  | 1 => (stepProc ⟨false, true⟩ 0 (Pool.initial attr)).getD (Pool.initial attr)
  | 2 => (spinTrace attr 1).spawn (.callAddJob .med)
  | k + 3 =>
    (stepProc ⟨false, true⟩ (spinThread k) (spinTrace attr (k + 2))).getD (spinTrace attr (k + 2))

theorem spinTrace_succ (attr : Attr) (k : Nat) :
    spinTrace attr (k + 1 + 3) =
      (stepProc ⟨false, true⟩ (spinThread (k + 1)) (spinTrace attr (k + 3))).getD
        (spinTrace attr (k + 3)) := rfl

theorem spinThread_of_even {k : Nat} (hk : k % 2 = 0) : spinThread (k + 1) = k / 2 + 2 := by
  unfold spinThread
  rw [if_neg (by omega)]
  omega

theorem spinThread_of_odd {k : Nat} (hk : k % 2 = 1) : spinThread (k + 1) = 1 := by
  unfold spinThread
  rw [if_pos (by omega)]

theorem step_getD {v : Nat} (h : stepProc ⟨false, true⟩ v s = some s') :
    Step s ((stepProc ⟨false, true⟩ v s).getD s) := by
  simpa only [h, Option.getD_some] using Step.run v _ h

def SpinAt (attr : Attr) (k : Nat) (s : Pool) : Prop :=
  if k % 2 = 0 then SpinPre attr (k / 2) s else SpinPost attr (k / 2) s

theorem SpinAt.next {attr : Attr} {k : Nat} (hu : Unbounded attr) (h : SpinAt attr k s) :
    ∃ s', stepProc ⟨false, true⟩ (spinThread (k + 1)) s = some s' ∧ SpinAt attr (k + 1) s' := by
  unfold SpinAt at h ⊢
  rcases Nat.mod_two_eq_zero_or_one k with hk | hk
  · have hk' : ¬(k + 1) % 2 = 0 := by omega
    rw [if_pos hk] at h
    simp only [spinThread_of_even hk, hk', if_false, show (k + 1) / 2 = k / 2 by omega]
    exact h.start
  · have hk' : (k + 1) % 2 = 0 := by omega
    rw [if_neg (by omega)] at h
    simp only [spinThread_of_odd hk, hk', if_true, show (k + 1) / 2 = k / 2 + 1 by omega]
    exact h.next hu

theorem SpinAt.keeps {attr : Attr} {k : Nat} (h : SpinAt attr k s) :
    s.attr = attr ∧ queuedJobs s ≤ 1 ∧ s.persistentJob = none := by
  unfold SpinAt at h
  split_ifs at h <;> exact ⟨h.attr, by have := h.queued; omega, h.persistent⟩

section Spin

variable {attr : Attr} (hu : Unbounded attr) (hmin : attr.minThreads ≤ 0)
  (hq : 0 < attr.maxJobsTotal)

include hmin in
theorem spinTrace_one : spinTrace attr 1 = (Pool.initial attr).setProc 0 (.returned .zero) := by
  simp [spinTrace, Machine.stepProc, Pool.initial, startPool, show ¬ 0 < attr.minThreads by omega]

include hu hmin hq in
theorem spinTrace_two :
    stepProc ⟨false, true⟩ 1 (spinTrace attr 2) = some (spinTrace attr 3) ∧
      SpinPre attr 0 (spinTrace attr 3) := by
  have h2 : spinTrace attr 2 =
      ((Pool.initial attr).setProc 0 (.returned .zero)).spawn (.callAddJob .med) := by
    rw [← spinTrace_one hmin]
    rfl
  have hs : stepProc ⟨false, true⟩ 1 (spinTrace attr 2) =
      some (addJob (spinTrace attr 2) 1 .med) := by
    rw [h2]
    rfl
  have h3 : spinTrace attr 3 = addJob (spinTrace attr 2) 1 .med := by
    show (stepProc _ (spinThread 0) _).getD _ = _
    rw [show spinThread 0 = 1 from rfl, hs]
    rfl
  rw [h3]
  refine ⟨hs, ?_⟩
  rw [h2]
  refine ⟨?_, ?_, ?_, ?_, ?_, ?_, ?_, ?_⟩ <;>
    simp [addJob, Pool.spawn, Pool.setProc, Pool.initial, queuedJobs, wantsWorker, createWorker,
      createWorkerCheck, hu.2, show ¬ attr.maxJobsTotal ≤ 0 by omega]

include hu hmin hq in
theorem spinTrace_round (k : Nat) : SpinAt attr k (spinTrace attr (k + 3)) := by
  induction k with
  | zero => simpa [SpinAt] using (spinTrace_two hu hmin hq).2
  | succ k ih =>
    obtain ⟨s', hs, h⟩ := ih.next hu
    rwa [spinTrace_succ, hs]

include hu hmin hq in
theorem spinTrace_step (k : Nat) : Step (spinTrace attr k) (spinTrace attr (k + 1)) := by
  match k with
  | 0 => exact step_getD rfl
  | 1 => exact .call _ rfl
  | 2 => exact step_getD (spinTrace_two hu hmin hq).1
  | k + 3 =>
    obtain ⟨s', hs, -⟩ := (spinTrace_round hu hmin hq k).next hu
    rw [spinTrace_succ]
    exact step_getD hs

end Spin

/-- With `jobsPerThread ≤ 0` and `INFINITE_THREADS` a caller in the loop of `addWorker` stays,
adding a thread each time it moves; a pool built with them has a run that starts workers without
bound for a single `addJob`. -/
theorem add_worker_unbounded {attr : Attr} (hj : attr.jobsPerThread ≤ 0)
    (hm : attr.maxThreads = infiniteThreads) (hmin : attr.minThreads ≤ 0)
    (hq : 0 < attr.maxJobsTotal) :
    (∀ (r : Run attr) (t a : Nat) (jobs : Int), 0 ≤ jobs →
      InAddWorker jobs ((r.state a).threads t) → (∀ k, (r.state k).attr = attr) →
      ∀ k, a ≤ k → InAddWorker jobs ((r.state k).threads t) ∧
        ((r.state (k + 1)).threads t ≠ (r.state k).threads t →
          (r.state (k + 1)).spawned = (r.state k).spawned + 1)) ∧
    ∃ r : Run attr, (∀ k, (r.state k).attr = attr ∧ queuedJobs (r.state k) ≤ 1 ∧
        (r.state k).persistentJob = none) ∧
      (∀ k, 3 ≤ k → InAddWorker 1 ((r.state k).threads 1)) ∧
      ∀ N : Nat, ∃ k, (N : Int) ≤ (r.state k).totalThreads := by
  have hu : Unbounded attr := ⟨hj, hm⟩
  have loops : ∀ (r : Run attr) (t a : Nat) (jobs : Int), 0 ≤ jobs →
      InAddWorker jobs ((r.state a).threads t) → (∀ k, (r.state k).attr = attr) →
      ∀ k, a ≤ k → InAddWorker jobs ((r.state k).threads t) ∧
        ((r.state (k + 1)).threads t ≠ (r.state k).threads t →
          (r.state (k + 1)).spawned = (r.state k).spawned + 1) := by
    intro r t a jobs hj ha hattr k hk
    have hu' : ∀ k, Unbounded (r.state k).attr := fun k ↦ by rw [hattr k]; exact hu
    have hin := inAddWorker_run r hj ha (fun k _ ↦ hu' k) k hk
    refine ⟨hin, fun hm ↦ ?_⟩
    rcases r.step k with h | h
    · exact spawned_of_moved (books_run r k) (hu' k) hj hin h hm
    · exact absurd (by rw [h]) hm
  have round := spinTrace_round hu hmin hq
  have hkeep : ∀ k, (spinTrace attr k).attr = attr ∧ queuedJobs (spinTrace attr k) ≤ 1 ∧
      (spinTrace attr k).persistentJob = none := by
    intro k
    match k with
    | 0 => simp [spinTrace, Pool.initial, queuedJobs]
    | 1 => simp [spinTrace_one hmin, Pool.setProc, Pool.initial, queuedJobs]
    | 2 =>
      rw [show spinTrace attr 2 = (spinTrace attr 1).spawn (.callAddJob .med) from rfl,
        spinTrace_one hmin]
      simp [Pool.spawn, Pool.setProc, Pool.initial, queuedJobs]
    | k + 3 => exact (round k).keeps
  let r : Run attr := ⟨spinTrace attr, rfl, fun k ↦ .inl (spinTrace_step hu hmin hq k)⟩
  refine ⟨loops, r, hkeep,
    fun k hk ↦
      (loops r 1 3 1 (by decide) ⟨0, Int.le_refl 0, .inr ?_⟩ (fun k ↦ (hkeep k).1) k hk).1,
    fun N ↦ ⟨2 * N + 3, ?_⟩⟩
  · exact (round 0).caller
  · have h := round (2 * N)
    rw [SpinAt, if_pos (by omega), show 2 * N / 2 = N by omega] at h
    have := h.total
    change (N : Int) ≤ (spinTrace attr (2 * N + 3)).totalThreads
    omega

def zeroRatio : Attr := ⟨0, infiniteThreads, 100, 0, 10, 500⟩

theorem add_worker_unbounded_zero_ratio :
    zeroRatio.jobsPerThread ≤ 0 ∧ zeroRatio.maxThreads = infiniteThreads ∧
      zeroRatio.minThreads ≤ 0 ∧ 0 < zeroRatio.maxJobsTotal ∧
      ∃ r : Run zeroRatio, (∀ k, 3 ≤ k → InAddWorker 1 ((r.state k).threads 1)) ∧
        ∀ N : Nat, ∃ k, (N : Int) ≤ (r.state k).totalThreads := by
  obtain ⟨-, r, -, h1, h2⟩ :=
    @add_worker_unbounded zeroRatio (by decide) rfl (by decide) (by decide)
  exact ⟨by decide, rfl, by decide, by decide, r, h1, h2⟩

end Npupnp.Pool.AddWorker
