import Mathlib.Logic.Relation
import Npupnp.Pool.AddWorker

namespace Npupnp.Pool.WorkerStarts

open Machine Accounting AddWorker

variable {s s' : Pool} {t : Nat}

def Helps (t : Nat) (s s' : Pool) : Prop :=
  ∃ u, (u = t ∨ s.threads u = .starting) ∧ stepProc ⟨false, true⟩ u s = some s'

/-- The loops of `setAttr` and of the constructor, `i` running from the `totalThreads` read on entry
up to `minThreads`; they differ only in the code `shutdown` gets when `createWorker` fails. -/
structure MinLoop where
  caller : Int → Caller
  rc : Ret
  createDone_eq : ∀ s t i, createDone s t (caller i) =
    if i + 1 < s.attr.minThreads then createWorker s t (caller (i + 1))
    else s.setProc t (.returned .zero)
  createFailed_eq : ∀ s t i, createFailed s t (caller i) = s.setProc t (.callShutdown rc)

def setAttrLoop : MinLoop := ⟨.setAttr, .emaxthreads, fun _ _ _ ↦ rfl, fun _ _ _ ↦ rfl⟩

def startLoop : MinLoop := ⟨.start, .failed, fun _ _ _ ↦ rfl, fun _ _ _ ↦ rfl⟩

def Ends (L : MinLoop) (t : Nat) (e : Int) (a : Attr) (s : Pool) : Prop :=
  ∃ s', Relation.ReflTransGen (Helps t) s s' ∧ s'.attr = a ∧
    if a.maxThreads ≠ infiniteThreads ∧ a.maxThreads < a.minThreads + e
    then s'.threads t = .callShutdown L.rc
    else s'.threads t = .returned .zero ∧ s'.totalThreads = a.minThreads + e

theorem Ends.head {L : MinLoop} {e : Int} {a : Attr} {x : Pool} (h : Helps t s x)
    (hx : Ends L t e a x) : Ends L t e a s :=
  let ⟨s', hp, rest⟩ := hx
  ⟨s', .head h hp, rest⟩

theorem Helps.books (hb : Books s) (h : Helps t s s') : Books s' :=
  let ⟨_, _, h⟩ := h
  (hb.stepProc h).1

theorem helps_starting (hb : Books s) (hp : s.pendingWorkerThreadStart ≠ 0)
    (ht : s.threads t ≠ .starting) :
    ∃ s', Helps t s s' ∧ s'.threads t = s.threads t ∧
      s'.totalThreads = s.totalThreads + 1 ∧ s'.pendingWorkerThreadStart = 0 ∧
      s'.attr = s.attr ∧ s'.busyThreads = s.busyThreads := by
  obtain ⟨u, hu, -⟩ := starting_unique hb hp
  have hut : t ≠ u := by
    rintro rfl
    exact ht hu
  refine ⟨{ s with totalThreads := s.totalThreads + 1, pendingWorkerThreadStart := 0 }.setProc
    u (.top none (-1)), ⟨u, .inr hu, by rw [Machine.stepProc, hu]⟩, ?_, rfl, rfl, rfl, rfl⟩
  simp only [setProc_threads, Function.update_noteq hut]

section Loop

variable (L : MinLoop) {e : Int} {a : Attr}

theorem ends_of_check {x : Pool} {j : Int}
    (hloop : ∀ y, Books y → y.attr = a → y.threads t = .waitStarted (L.caller j) →
      y.pendingWorkerThreadStart ≠ 0 → y.totalThreads = j + e →
      (a.maxThreads = infiniteThreads ∨ j + e + 1 ≤ a.maxThreads) → Ends L t e a y)
    (hb : Books s) (h : Helps t s (createWorkerCheck x t (L.caller j))) (ha : x.attr = a)
    (hj : j < a.minThreads) (htot : x.totalThreads = j + e) : Ends L t e a s := by
  subst ha
  have hb' := h.books hb
  unfold createWorkerCheck at h hb'
  split_ifs at h hb' with hmax
  · rw [L.createFailed_eq] at h
    refine .head h ⟨_, .refl, rfl, ?_⟩
    rw [if_pos (by omega)]
    simp
  · exact .head h (hloop _ hb' rfl (by simp) (by simp) htot (by omega))

theorem ends_of_waitStarted (n : Nat) : ∀ i : Int, a.minThreads ≤ i + n →
    i < a.minThreads → ∀ s : Pool, Books s → s.attr = a →
    s.threads t = .waitStarted (L.caller i) → s.pendingWorkerThreadStart ≠ 0 →
    s.totalThreads = i + e → (a.maxThreads = infiniteThreads ∨ i + e + 1 ≤ a.maxThreads) →
    Ends L t e a s := by
  induction n with
  | zero => intro i hn hi; omega
  | succ n ih =>
    intro i hn hi s hb ha ht hp htot hpass
    obtain ⟨s₁, h₁, ht₁, htot₁, hp₁, ha₁, -⟩ := helps_starting hb hp (by rw [ht]; nofun)
    have hstep : stepProc ⟨false, true⟩ t s₁ = some (createDone s₁ t (L.caller i)) := by
      simp only [Machine.stepProc, ht₁, ht, if_pos hp₁]
    rw [L.createDone_eq, ha₁, ha] at hstep
    refine .head h₁ ?_
    split_ifs at hstep with hnext
    · rw [createWorker, if_neg (by simp [hp₁])] at hstep
      exact ends_of_check L (ih (i + 1) (by omega) hnext) (h₁.books hb) ⟨t, .inl rfl, hstep⟩
        (ha₁.trans ha) hnext (by omega)
    · refine .head ⟨t, .inl rfl, hstep⟩ ⟨_, .refl, by simp [ha₁, ha], ?_⟩
      rw [if_neg (by omega)]
      exact ⟨by simp, by simp only [setProc_totalThreads, htot₁]; omega⟩

theorem ends_of_createWorker {x : Pool} {i : Int} (hb : Books s)
    (h : Helps t s (createWorker x t (L.caller i))) (ha : x.attr = a)
    (he : e = x.pendingWorkerThreadStart) (htot : x.totalThreads = i) (hi : i < a.minThreads) :
    Ends L t e a s := by
  have hloop := ends_of_waitStarted L (t := t) (e := e) _ i
    (Int.le_add_of_sub_left_le (Int.self_le_toNat (a.minThreads - i))) hi
  have hb₁ := h.books hb
  unfold createWorker at h hb₁
  split_ifs at h hb₁ with hp
  · obtain ⟨s₂, h₂, ht₂, htot₂, hp₂, ha₂, -⟩ := helps_starting (t := t) hb₁ (by simpa using hp)
      (by simp)
    have hstep : stepProc ⟨false, true⟩ t s₂ = some (createWorkerCheck s₂ t (L.caller i)) := by
      simp only [Machine.stepProc, ht₂, setProc_threads, Function.update_same, if_pos hp₂]
    have hone : x.pendingWorkerThreadStart = 1 := by
      have := hb₁.pending
      have := hb₁.pendingLe
      simp only [setProc_pendingWorkerThreadStart] at *
      omega
    exact .head h (.head h₂ (ends_of_check L hloop (h₂.books hb₁) ⟨t, .inl rfl, hstep⟩
      (by simp [ha₂, ha]) hi (by simp [htot₂, htot]; omega)))
  · exact ends_of_check L hloop hb h ha hi (by omega)

end Loop

/-- A pool built with no minimum, an `addJob` whose new worker is starting, and a call of
`setAttr` with `minThreads = maxThreads = 1`. -/
def setAttrRaceRun : Run ⟨0, 2, 100, 10, 10, 500⟩ :=
  Run.ofExec _ [.run 0 ⟨false, true⟩, .call (.callAddJob .med), .run 1 ⟨false, true⟩,
    .call (.callSetAttr ⟨1, 1, 100, 10, 10, 500⟩)] rfl

example : (setAttrRaceRun.state 4).totalThreads = 0 ∧
    (setAttrRaceRun.state 4).pendingWorkerThreadStart = 1 ∧
    ((exec (setAttrRaceRun.state 4) [.run 3 ⟨false, true⟩, .run 2 ⟨false, true⟩,
      .run 3 ⟨false, true⟩]).map (·.threads 3)) = some (.callShutdown .emaxthreads) := by
  decide

def Returns (t : Nat) (s : Pool) : Prop :=
  ∃ s', Relation.ReflTransGen (Helps t) s s' ∧ s'.threads t = .returned .zero

theorem Returns.head {x : Pool} (h : Helps t s x) (hx : Returns t x) : Returns t s :=
  let ⟨s', hp, rest⟩ := hx
  ⟨s', .head h hp, rest⟩

/-- What stops the loop of `addWorker` within `N` more workers: a finite `maxThreads` at most `N`
above the workers counted, or `0 < jobsPerThread` and `jobs` at most `N` above the count `n`. -/
def Bounded (a : Attr) (jobs n total : Int) (N : Nat) : Prop :=
  (a.maxThreads ≠ infiniteThreads ∧ a.maxThreads ≤ total + N) ∨
    (0 < a.jobsPerThread ∧ jobs ≤ n + N)

section AddWorker

variable {jobs : Int}

theorem returns_of_check {x : Pool} {n : Int}
    (hloop : ∀ y, Books y → y.attr = x.attr → y.threads t = .waitStarted (.addWorker jobs n) →
      y.pendingWorkerThreadStart ≠ 0 → y.totalThreads = x.totalThreads →
      (x.attr.maxThreads = infiniteThreads ∨ x.totalThreads + 1 ≤ x.attr.maxThreads) →
      Returns t y)
    (hb : Books s) (h : Helps t s (createWorkerCheck x t (.addWorker jobs n))) :
    Returns t s := by
  have hb' := h.books hb
  unfold createWorkerCheck at h hb'
  split_ifs at h hb' with hmax
  · exact .head h ⟨_, .refl, by simp [createFailed, addJobDone]⟩
  · exact .head h (hloop _ hb' rfl (by simp) (by simp) rfl (by omega))

theorem returns_of_round {n : Int} (hb : Books s)
    (ht : s.threads t = .waitStarted (.addWorker jobs n)) (hp : s.pendingWorkerThreadStart ≠ 0)
    (hnext : n + 1 = 0 ∨ s.attr.jobsPerThread ≤ jobs.tdiv (n + 1) ∨
        s.totalThreads + 1 = s.busyThreads →
      (s.attr.maxThreads = infiniteThreads ∨ s.totalThreads + 2 ≤ s.attr.maxThreads) →
      ∀ y, Books y → y.attr = s.attr → y.threads t = .waitStarted (.addWorker jobs (n + 1)) →
        y.pendingWorkerThreadStart ≠ 0 → y.totalThreads = s.totalThreads + 1 → Returns t y) :
    Returns t s := by
  obtain ⟨s₁, h₁, ht₁, htot₁, hp₁, ha₁, hbusy₁⟩ := helps_starting hb hp (by rw [ht]; nofun)
  have hstep : stepProc ⟨false, true⟩ t s₁ = some (createDone s₁ t (.addWorker jobs n)) := by
    simp only [Machine.stepProc, ht₁, ht, if_pos hp₁]
  simp only [createDone] at hstep
  refine .head h₁ ?_
  split_ifs at hstep with hw
  · rw [createWorker, if_neg (by simp [hp₁])] at hstep
    refine returns_of_check (fun y hby hay hty hpy htoty hpass ↦ ?_) (h₁.books hb)
      ⟨t, .inl rfl, hstep⟩
    simp only [wantsWorker, Bool.or_eq_true, beq_iff_eq, decide_eq_true_eq, ha₁, htot₁,
      hbusy₁] at hw
    rw [ha₁, htot₁] at hpass
    exact hnext (by omega) (by omega) y hby (hay.trans ha₁) hty hpy (htoty.trans htot₁)
  · exact .head ⟨t, .inl rfl, hstep⟩ ⟨_, .refl, by simp [addJobDone]⟩

theorem returns_of_waitStarted (hj : 0 ≤ jobs) (N : Nat) : ∀ s n, Books s →
    s.threads t = .waitStarted (.addWorker jobs n) → s.pendingWorkerThreadStart ≠ 0 → 0 ≤ n →
    Bounded s.attr jobs n s.totalThreads N → Returns t s := by
  induction N with
  | zero =>
    intro s n hb ht hp hn hB
    refine returns_of_round hb ht hp fun hw hpass ↦ ?_
    have := hb.busy_le_total
    rcases hB with hB | hB
    · omega
    · rw [Int.tdiv_eq_zero_of_lt hj (by omega)] at hw
      omega
  | succ N ih =>
    intro s n hb ht hp hn hB
    refine returns_of_round hb ht hp fun _ _ y hby hay hty hpy htoty ↦
      ih y (n + 1) hby hty hpy (by omega) ?_
    unfold Bounded at hB ⊢
    rw [hay, htoty]
    exact hB.imp (fun h ↦ ⟨h.1, by omega⟩) fun h ↦ ⟨h.1, by omega⟩

theorem returns_of_createWorker {x : Pool} {n : Int} (hb : Books s)
    (h : Helps t s (createWorker x t (.addWorker jobs n))) (hj : 0 ≤ jobs) (hn : 0 ≤ n)
    (hcfg : x.attr.maxThreads ≠ infiniteThreads ∨ 0 < x.attr.jobsPerThread) : Returns t s := by
  have hloop (y : Pool) (hby : Books y) (hay : y.attr = x.attr)
      (hty : y.threads t = .waitStarted (.addWorker jobs n)) (hpy : y.pendingWorkerThreadStart ≠ 0) :
      Returns t y :=
    returns_of_waitStarted hj ((x.attr.maxThreads - y.totalThreads).toNat + (jobs - n).toNat)
      y n hby hty hpy hn (by unfold Bounded; rw [hay]; omega)
  have hb₁ := h.books hb
  unfold createWorker at h hb₁
  split_ifs at h hb₁ with hp
  · obtain ⟨s₂, h₂, ht₂, -, hp₂, ha₂, -⟩ := helps_starting (t := t) hb₁ (by simpa using hp)
      (by simp)
    have hstep : stepProc ⟨false, true⟩ t s₂ = some (createWorkerCheck s₂ t (.addWorker jobs n)) := by
      simp only [Machine.stepProc, ht₂, setProc_threads, Function.update_same, if_pos hp₂]
    exact .head h (.head h₂ (returns_of_check (fun y hby hay hty hpy _ _ ↦
      hloop y hby (by simp [hay, ha₂]) hty hpy) (h₂.books hb₁) ⟨t, .inl rfl, hstep⟩))
  · exact returns_of_check (fun y hby hay hty hpy _ _ ↦ hloop y hby hay hty hpy) hb h

end AddWorker

def addJobRatioRun : Run ⟨0, -1, 100, 1, 10, 500⟩ :=
  Run.ofExec _ [.run 0 ⟨false, true⟩, .call (.callAddJob .med)] rfl

example : ((exec (addJobRatioRun.state 2) [.run 1 ⟨false, true⟩, .run 2 ⟨false, true⟩,
    .run 1 ⟨false, true⟩, .run 3 ⟨false, true⟩, .run 1 ⟨false, true⟩]).map
      fun s ↦ (s.threads 1, s.totalThreads)) = some (.returned .zero, 2) := by
  decide

end Npupnp.Pool.WorkerStarts
