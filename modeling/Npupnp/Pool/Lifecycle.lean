import Mathlib.Data.Multiset.Nodup
import Mathlib.Tactic.Abel
import Npupnp.Pool.Bump

namespace Npupnp.Pool.Lifecycle

open Machine Accounting Queues Bump

def takenJob : Proc → Option Job
  | .running j _ => some j
  | _ => none

def finishedJob : Proc → Option Job
  | .top job _ => job
  | _ => none

def Jobless (p : Proc) : Prop :=
  takenJob p = none ∧ finishedJob p = none

def threadJobs (s : Pool) (f : Proc → Option Job) : Multiset Job :=
  ((List.range s.spawned).filterMap fun u ↦ f (s.threads u) : List Job)

def pending (s : Pool) : Multiset Job :=
  (order s : Multiset Job) + (s.persistentJob.toList : Multiset Job) + threadJobs s takenJob

def done (s : Pool) : Multiset Job :=
  threadJobs s finishedJob

def Creates : Proc → Bool
  | .callAddJob _ | .callAddPersistent _ => true
  | .waitPending (.addPersistent _) | .waitStarted (.addPersistent _) => true
  | _ => false

theorem filterMap_singleton (F : Nat → Option Job) (n : Nat) :
    [n].filterMap F = (F n).toList := by
  cases h : F n <;> simp [h]

theorem filterMap_range_agree (f : Proc → Option Job) {g g' : Nat → Proc} {n m : Nat}
    (hnm : n ≤ m) (hold : ∀ u < n, f (g' u) = f (g u))
    (hnew : ∀ u, n ≤ u → u < m → f (g' u) = none) :
    (List.range m).filterMap (fun u ↦ f (g' u)) = (List.range n).filterMap fun u ↦ f (g u) := by
  induction m, hnm using Nat.le_induction with
  | base => exact List.filterMap_congr fun u hu ↦ hold u (List.mem_range.1 hu)
  | succ m hm ih =>
    rw [List.range_succ, List.filterMap_append, ih (fun u hu hm' ↦ hnew u hu (by omega)),
      filterMap_singleton, hnew m hm (by omega), Option.toList_none, List.append_nil]

theorem threadJobs_eq {f : Proc → Option Job} {s s' : Pool} (hsp : s.spawned ≤ s'.spawned)
    (hold : ∀ u < s.spawned, f (s'.threads u) = f (s.threads u))
    (hnew : ∀ u, s.spawned ≤ u → u < s'.spawned → f (s'.threads u) = none) :
    threadJobs s' f = threadJobs s f := by
  rw [threadJobs, threadJobs, filterMap_range_agree f hsp hold hnew]

theorem filterMap_range_update (f : Proc → Option Job) (g : Nat → Proc) {n t : Nat} (ht : t < n)
    (p : Proc) :
    (((List.range n).filterMap fun u ↦ f (Function.update g t p u) : List Job) : Multiset Job) +
        ((f (g t)).toList : Multiset Job) =
      ((List.range n).filterMap fun u ↦ f (g u) : List Job) + ((f p).toList : Multiset Job) := by
  induction n with
  | zero => omega
  | succ n ih =>
    simp only [List.range_succ, List.filterMap_append, ← Multiset.coe_add, filterMap_singleton]
    rcases Nat.lt_succ_iff_lt_or_eq.1 ht with ht | rfl
    · rw [Function.update_noteq (show n ≠ t by omega), add_right_comm, ih ht, add_right_comm]
    · rw [filterMap_range_agree f le_rfl (fun u hu ↦ by rw [Function.update_noteq (by omega)])
        (fun u h1 h2 ↦ by omega), Function.update_same, add_right_comm]

theorem threadJobs_setProc (f : Proc → Option Job) {s : Pool} {t : Nat} (ht : t < s.spawned)
    (p : Proc) :
    threadJobs (s.setProc t p) f + ((f (s.threads t)).toList : Multiset Job) =
      threadJobs s f + ((f p).toList : Multiset Job) :=
  filterMap_range_update f s.threads ht p

variable {s s' x : Pool} {t : Nat}

theorem threadJobs_congr (f : Proc → Option Job) (h1 : x.threads = s.threads)
    (h2 : x.spawned = s.spawned) : threadJobs x f = threadJobs s f := by
  rw [threadJobs, threadJobs, h1, h2]

theorem threadJobs_setProc_none (f : Proc → Option Job) (ht : t < s.spawned) {p : Proc}
    (h0 : f (s.threads t) = none) (hp : f p = none) :
    threadJobs (s.setProc t p) f = threadJobs s f := by
  simpa [h0, hp] using threadJobs_setProc f ht p

@[simp] theorem order_setProc (p : Proc) : order (s.setProc t p) = order s := rfl

@[simp] theorem setProc_persistentJob (p : Proc) :
    (s.setProc t p).persistentJob = s.persistentJob := rfl

@[simp] theorem setProc_ran (p : Proc) : (s.setProc t p).ran = s.ran := rfl

@[simp] theorem setProc_freed (p : Proc) : (s.setProc t p).freed = s.freed := rfl

theorem pending_setProc (ht : t < s.spawned) (p : Proc) :
    pending (s.setProc t p) + ((takenJob (s.threads t)).toList : Multiset Job) =
      pending s + ((takenJob p).toList : Multiset Job) := by
  simp only [pending, order_setProc, setProc_persistentJob, add_assoc,
    threadJobs_setProc takenJob ht p]

theorem done_setProc (ht : t < s.spawned) (p : Proc) :
    done (s.setProc t p) + ((finishedJob (s.threads t)).toList : Multiset Job) =
      done s + ((finishedJob p).toList : Multiset Job) :=
  threadJobs_setProc finishedJob ht p

theorem creators_update {p : Proc} (hc : Creates p = true → Creates (s.threads t) = true)
    (u : Nat) (hu : Creates (Function.update s.threads t p u) = true) :
    Creates (s.threads u) = true := by
  rw [Function.update_apply] at hu
  split_ifs at hu with h
  · subst h; exact hc hu
  · exact hu

/-- What one section does to the jobs: nothing, a new job (the slot's old one possibly lost), a run
of the job the worker holds, or deletions: unrun jobs by `shutdown`, run ones by their worker. -/
inductive LifeMove (s s' : Pool) (t : Nat) : Prop
  | keep (hp : pending s' = pending s) (hd : done s' = done s) (hr : s'.ran = s.ran)
      (hf : s'.freed = s.freed)
  | make (j : Job) (hj : j.owner = t) (hc : Creates (s.threads t) = true)
      (hc' : Creates (s'.threads t) = false) (hp : pending s' ≤ j ::ₘ pending s)
      (hd : done s' = done s) (hr : s'.ran = s.ran) (hf : s'.freed = s.freed)
  | run (j : Job) (ht : ∃ q, s.threads t = .running j q) (hp : pending s' + {j} = pending s)
      (hd : done s' = done s + {j}) (hr : s'.ran = s.ran ++ [j]) (hf : s'.freed = s.freed)
  | free (X Y : Multiset Job) (Z : List Job) (hp : pending s' + X = pending s)
      (hd : done s' + Y = done s) (hr : s'.ran = s.ran) (hf : s'.freed = s.freed ++ Z)
      (hz : (Z : Multiset Job) = X + Y) (hx : X ≠ 0 → s'.shuttingdown = true)

structure LifeStep (s s' : Pool) (t : Nat) : Prop where
  move : LifeMove s s' t
  spawned : s.spawned ≤ s'.spawned
  creators : ∀ u, Creates (s'.threads u) = true → Creates (s.threads u) = true

structure Still (s s' : Pool) : Prop where
  pending_eq : pending s' = pending s
  done_eq : done s' = done s
  ran_eq : s'.ran = s.ran
  freed_eq : s'.freed = s.freed
  spawned : s.spawned ≤ s'.spawned
  creators : ∀ u, Creates (s'.threads u) = true → Creates (s.threads u) = true

theorem Still.lifeStep (h : Still s s') : LifeStep s s' t :=
  ⟨.keep h.pending_eq h.done_eq h.ran_eq h.freed_eq, h.spawned, h.creators⟩

structure Same (s x : Pool) : Prop where
  queues : order x = order s
  slot : x.persistentJob = s.persistentJob
  ran : x.ran = s.ran
  freed : x.freed = s.freed
  threads : x.threads = s.threads
  spawned : x.spawned = s.spawned

theorem Same.pending_eq (h : Same s x) : pending x = pending s := by
  rw [pending, pending, h.queues, h.slot, threadJobs_congr _ h.threads h.spawned]

theorem Same.done_eq (h : Same s x) : done x = done s :=
  threadJobs_congr _ h.threads h.spawned

theorem still_setProc {p : Proc} (ht : t < s.spawned) (h0 : Jobless (s.threads t))
    (hp : Jobless p) (hc : Creates p = true → Creates (s.threads t) = true) (hx : Same s x) :
    Still s (x.setProc t p) := by
  have hts : t < x.spawned := hx.spawned ▸ ht
  have hxt : x.threads t = s.threads t := by rw [hx.threads]
  refine ⟨?_, ?_, hx.ran, hx.freed, hx.spawned.ge, fun u hu ↦ ?_⟩
  · have := pending_setProc hts p
    rwa [hxt, h0.1, hp.1, Option.toList_none, Multiset.coe_nil, add_zero, add_zero,
      hx.pending_eq] at this
  · have := done_setProc hts p
    rwa [hxt, h0.2, hp.2, Option.toList_none, Multiset.coe_nil, add_zero, add_zero,
      hx.done_eq] at this
  · rw [setProc_threads, hx.threads] at hu
    exact creators_update hc u hu

theorem agree_update {f : Proc → Option Job} {g : Nat → Proc} {p : Proc} (h : f p = f (g t))
    (u : Nat) : f (Function.update g t p u) = f (g u) := by
  rw [Function.update_apply]
  split_ifs with hu
  · subst hu; exact h
  · rfl

theorem still_start {k : Caller} (ht : t < s.spawned) (h0 : Jobless (s.threads t))
    (hk : Creates (.waitStarted k) = true → Creates (s.threads t) = true) :
    Still s { s with
      threads := Function.update (Function.update s.threads s.spawned .starting) t
        (.waitStarted k)
      spawned := s.spawned + 1
      pendingWorkerThreadStart := 1 } := by
  have hjobs (f : Proc → Option Job) (hf : f (.waitStarted k) = f (s.threads t))
      (hs : f .starting = none) (x : Pool)
      (e1 : x.threads = Function.update (Function.update s.threads s.spawned .starting) t
        (.waitStarted k)) (e2 : x.spawned = s.spawned + 1) : threadJobs x f = threadJobs s f :=
    threadJobs_eq (by omega)
      (fun u hu ↦ by
        rw [e1, agree_update (f := f) (by rwa [Function.update_noteq (by omega : t ≠ s.spawned)]),
          Function.update_noteq (by omega)])
      (fun u h1 h2 ↦ by
        rw [e1, Function.update_noteq (by omega), show u = s.spawned by omega,
          Function.update_same, hs])
  refine ⟨?_, hjobs _ h0.2.symm rfl _ rfl rfl, rfl, rfl, Nat.le_succ _, fun u hu ↦ ?_⟩
  · simp only [pending]
    rw [hjobs _ h0.1.symm rfl _ rfl rfl]
    rfl
  · refine creators_update hk u ?_
    dsimp only at hu
    by_cases h : u = t
    · subst h; simpa using hu
    · rw [Function.update_noteq h] at hu ⊢
      rw [Function.update_apply] at hu
      split_ifs at hu
      · cases hu
      · exact hu

theorem lifeStep_persistentSet (ht : t < s.spawned) (h0 : Jobless (s.threads t))
    (hc : Creates (s.threads t) = true) (priority : Priority) :
    LifeStep s (persistentSet s t priority) t := by
  have e (f : Proc → Option Job) (hf : f (s.threads t) = none) (hw : f .waitPersistent = none) :
      threadJobs (persistentSet s t priority) f = threadJobs s f :=
    threadJobs_setProc_none (s := { s with persistentJob := some _ }) f ht hf hw
  have hq : pending (persistentSet s t priority) =
      ⟨t, priority, s.now, s.lastJobId⟩ ::ₘ
        ((order s : Multiset Job) + threadJobs s takenJob) := by
    rw [pending, e _ h0.1 rfl, ← Multiset.cons_add, ← Multiset.singleton_add, add_comm {_}]
    rfl
  refine ⟨.make ⟨t, priority, s.now, s.lastJobId⟩ rfl hc (by simp [persistentSet, Creates]) ?_
    (e _ h0.2 rfl) rfl rfl, le_rfl, fun u hu ↦ creators_update (fun h ↦ by cases h) u hu⟩
  rw [hq]
  exact Multiset.cons_le_cons _ (add_le_add_right (Multiset.le_add_right _ _) _)

theorem creates_waitPending (k : Caller) : Creates (.waitPending k) = Creates (.waitStarted k) := by
  cases k <;> rfl

theorem Still.of_same {r : Pool} (hx : Same s x) (h : Still x r) : Still s r :=
  ⟨h.pending_eq.trans hx.pending_eq, h.done_eq.trans hx.done_eq, h.ran_eq.trans hx.ran,
    h.freed_eq.trans hx.freed, hx.spawned ▸ h.spawned,
    fun u hu ↦ by simpa [hx.threads] using h.creators u hu⟩

theorem same_refl (s : Pool) : Same s s := ⟨rfl, rfl, rfl, rfl, rfl, rfl⟩

theorem still_addJobDone (ht : t < s.spawned) (h0 : Jobless (s.threads t)) :
    Still s (addJobDone s t) :=
  still_setProc ht h0 ⟨by rfl, by rfl⟩ (fun h ↦ by cases h) ⟨rfl, rfl, rfl, rfl, rfl, rfl⟩

theorem still_createFailed {k : Caller} (ht : t < s.spawned) (h0 : Jobless (s.threads t))
    (hk : Creates (.waitStarted k) = false) : Still s (createFailed s t k) := by
  cases k with
  | addWorker => exact still_addJobDone ht h0
  | addPersistent => cases hk
  | setAttr | start =>
    exact still_setProc ht h0 ⟨by rfl, by rfl⟩ (fun h ↦ by cases h) (same_refl s)

theorem lifeStep_createFailed {k : Caller} (ht : t < s.spawned) (h0 : Jobless (s.threads t))
    (hk : Creates (.waitStarted k) = true → Creates (s.threads t) = true) :
    LifeStep s (createFailed s t k) t := by
  cases k with
  | addPersistent p => exact lifeStep_persistentSet ht h0 (hk rfl) p
  | _ => exact (still_createFailed ht h0 (by rfl)).lifeStep

theorem still_createWorkerCheck {k : Caller} (ht : t < s.spawned) (h0 : Jobless (s.threads t))
    (hk : Creates (.waitStarted k) = false) : Still s (createWorkerCheck s t k) := by
  unfold createWorkerCheck
  split_ifs
  · exact still_createFailed ht h0 hk
  · exact still_start ht h0 (by simp [hk])

theorem lifeStep_createWorkerCheck {k : Caller} (ht : t < s.spawned) (h0 : Jobless (s.threads t))
    (hk : Creates (.waitStarted k) = true → Creates (s.threads t) = true) :
    LifeStep s (createWorkerCheck s t k) t := by
  unfold createWorkerCheck
  split_ifs
  · exact lifeStep_createFailed ht h0 hk
  · exact (still_start ht h0 hk).lifeStep

theorem still_createWorker {k : Caller} (ht : t < s.spawned) (h0 : Jobless (s.threads t))
    (hk : Creates (.waitStarted k) = false) : Still s (createWorker s t k) := by
  unfold createWorker
  split_ifs
  · exact still_setProc ht h0 ⟨by rfl, by rfl⟩ (by simp [creates_waitPending, hk])
      (same_refl s)
  · exact still_createWorkerCheck ht h0 hk

theorem lifeStep_createWorker {k : Caller} (ht : t < s.spawned) (h0 : Jobless (s.threads t))
    (hk : Creates (.waitStarted k) = true → Creates (s.threads t) = true) :
    LifeStep s (createWorker s t k) t := by
  unfold createWorker
  split_ifs
  · exact (still_setProc ht h0 ⟨by rfl, by rfl⟩ (by rw [creates_waitPending]; exact hk)
      (same_refl s)).lifeStep
  · exact lifeStep_createWorkerCheck ht h0 hk

theorem lifeStep_createDone {k : Caller} (ht : t < s.spawned) (h0 : Jobless (s.threads t))
    (hk : Creates (.waitStarted k) = true → Creates (s.threads t) = true) :
    LifeStep s (createDone s t k) t := by
  cases k with
  | addPersistent p => exact lifeStep_persistentSet ht h0 (hk rfl) p
  | addWorker | setAttr | start =>
    simp only [createDone]
    split_ifs
    · exact (still_createWorker ht h0 (by rfl)).lifeStep
    · first
      | exact (still_addJobDone ht h0).lifeStep
      | exact (still_setProc ht h0 ⟨by rfl, by rfl⟩ (fun h ↦ by cases h)
          (same_refl s)).lifeStep

theorem still_startPool (ht : t < s.spawned) (h0 : Jobless (s.threads t)) (policyOk : Bool) :
    Still s (startPool s t policyOk) := by
  unfold startPool
  split_ifs
  all_goals first
    | exact still_createWorker ht h0 (by rfl)
    | exact still_setProc ht h0 ⟨by rfl, by rfl⟩ (fun h ↦ by cases h) (same_refl s)

theorem still_setAttr (ht : t < s.spawned) (h0 : Jobless (s.threads t)) (policyOk : Bool)
    (attr : Attr) : Still s (setAttr s t policyOk attr) := by
  unfold setAttr
  split_ifs
  all_goals first
    | exact Still.of_same (x := { s with attr := attr }) ⟨rfl, rfl, rfl, rfl, rfl, rfl⟩
        (still_createWorker ht h0 (by rfl))
    | exact still_setProc ht h0 ⟨by rfl, by rfl⟩ (fun h ↦ by cases h)
        ⟨rfl, rfl, rfl, rfl, rfl, rfl⟩

theorem lifeStep_addPersistent {priority : Priority} (ht : t < s.spawned)
    (hp : s.threads t = .callAddPersistent priority) :
    LifeStep s (addPersistent s t priority) t := by
  have h0 : Jobless (s.threads t) := by rw [hp]; exact ⟨rfl, rfl⟩
  have hc : Creates (s.threads t) = true := by rw [hp]; rfl
  unfold addPersistent
  split_ifs
  all_goals first
    | exact lifeStep_createWorker ht h0 fun _ ↦ hc
    | exact lifeStep_persistentSet ht h0 hc priority
    | exact (still_setProc ht h0 ⟨by rfl, by rfl⟩ (fun h ↦ by cases h) (same_refl s)).lifeStep

theorem still_addWorker (ht : t < s.spawned) (h0 : Jobless (s.threads t)) (jobs threads : Int) :
    Still s (if wantsWorker s jobs threads then createWorker s t (.addWorker jobs threads)
      else addJobDone s t) ∧
    Creates ((if wantsWorker s jobs threads then createWorker s t (.addWorker jobs threads)
      else addJobDone s t).threads t) = false := by
  split_ifs
  · refine ⟨still_createWorker ht h0 rfl, ?_⟩
    unfold createWorker createWorkerCheck createFailed addJobDone
    split_ifs <;> simp [Creates]
  · exact ⟨still_addJobDone ht h0, by simp [addJobDone, Creates]⟩

theorem lifeStep_pushed {j : Job} (ht : t < s.spawned) (h0 : Jobless (s.threads t))
    (hj : j.owner = t) (hc : Creates (s.threads t) = true)
    (hq : (order x : Multiset Job) = j ::ₘ order s) (hs : x.persistentJob = s.persistentJob)
    (hr : x.ran = s.ran) (hf : x.freed = s.freed) (hth : x.threads = s.threads)
    (hsp : x.spawned = s.spawned) :
    LifeStep s (if wantsWorker x (queuedJobs x) (x.totalThreads - x.persistentThreads) then
      createWorker x t (.addWorker (queuedJobs x) (x.totalThreads - x.persistentThreads))
      else addJobDone x t) t := by
  obtain ⟨h, hc'⟩ := still_addWorker (s := x) (hsp ▸ ht) (by rwa [hth]) (queuedJobs x)
    (x.totalThreads - x.persistentThreads)
  refine ⟨.make j hj hc hc' (le_of_eq ?_) (h.done_eq.trans (threadJobs_congr _ hth hsp))
    (h.ran_eq.trans hr) (h.freed_eq.trans hf), hsp ▸ h.spawned,
    fun u hu ↦ by simpa [hth] using h.creators u hu⟩
  rw [h.pending_eq, pending, pending, hq, hs, threadJobs_congr _ hth hsp, Multiset.cons_add,
    Multiset.cons_add]

theorem lifeStep_addJob {priority : Priority} (ht : t < s.spawned)
    (hp : s.threads t = .callAddJob priority) : LifeStep s (addJob s t priority) t := by
  have h0 : Jobless (s.threads t) := by rw [hp]; exact ⟨rfl, rfl⟩
  have hc : Creates (s.threads t) = true := by rw [hp]; rfl
  unfold addJob
  split_ifs
  · exact (still_setProc ht h0 ⟨by rfl, by rfl⟩ (fun h ↦ by cases h) (same_refl s)).lifeStep
  · have hq {x : Pool} {j : Job} (hx : (order x : Multiset Job) = ↑(order s) + {j}) :
        (order x : Multiset Job) = j ::ₘ order s := by
      rw [hx, add_comm, Multiset.singleton_add]
    cases priority <;> dsimp only
    · exact lifeStep_pushed
        (x := { s with lowJobQ := s.lowJobQ ++ [⟨t, .low, s.now, s.lastJobId⟩] })
        (j := ⟨t, .low, s.now, s.lastJobId⟩) ht h0 rfl hc
        (hq (by simp only [order, ← Multiset.coe_add, Multiset.coe_singleton]; abel))
        rfl rfl rfl rfl rfl
    · exact lifeStep_pushed
        (x := { s with medJobQ := s.medJobQ ++ [⟨t, .med, s.now, s.lastJobId⟩] })
        (j := ⟨t, .med, s.now, s.lastJobId⟩) ht h0 rfl hc
        (hq (by simp only [order, ← Multiset.coe_add, Multiset.coe_singleton]; abel))
        rfl rfl rfl rfl rfl
    · exact lifeStep_pushed
        (x := { s with highJobQ := s.highJobQ ++ [⟨t, .high, s.now, s.lastJobId⟩] })
        (j := ⟨t, .high, s.now, s.lastJobId⟩) ht h0 rfl hc
        (hq (by simp only [order, ← Multiset.coe_add, Multiset.coe_singleton]; abel))
        rfl rfl rfl rfl rfl

theorem lifeStep_shutdownStart (ht : t < s.spawned) (h0 : Jobless (s.threads t)) (rc : Ret) :
    LifeStep s (shutdownStart s t rc) t := by
  have key (q : Proc) (hq : Jobless q) (hc : Creates q = false) :
      LifeStep s ({ s with
        freed := s.freed ++ s.highJobQ ++ s.medJobQ ++ s.lowJobQ ++ s.persistentJob.toList
        highJobQ := [], medJobQ := [], lowJobQ := [], persistentJob := none
        shuttingdown := true }.setProc t q) t := by
    have e (f : Proc → Option Job) (hf : f (s.threads t) = none) (hq : f q = none) :=
      threadJobs_setProc_none (s := { s with
        freed := s.freed ++ s.highJobQ ++ s.medJobQ ++ s.lowJobQ ++ s.persistentJob.toList
        highJobQ := [], medJobQ := [], lowJobQ := [], persistentJob := none
        shuttingdown := true }) f ht hf hq |>.trans (threadJobs_congr (s := s) f rfl rfl)
    refine ⟨.free ((order s : Multiset Job) + s.persistentJob.toList) 0
      (order s ++ s.persistentJob.toList) ?_ ((add_zero _).trans (e _ h0.2 hq.2)) rfl
      (by simp [Pool.setProc, order]) (by rw [add_zero, Multiset.coe_add]) fun _ ↦ rfl, le_rfl,
      fun u hu ↦ creators_update (by simp [hc]) u hu⟩
    rw [pending, e _ h0.1 hq.1, pending]
    simp only [Pool.setProc, order, List.append_nil, Option.toList_none, Multiset.coe_nil,
      zero_add]
    abel
  unfold shutdownStart
  dsimp only
  split_ifs
  · exact key _ ⟨rfl, rfl⟩ rfl
  · exact key _ ⟨rfl, rfl⟩ rfl

theorem passes_logs (h : Passes s s') : s'.ran = s.ran ∧ s'.freed = s.freed := by
  induction h with
  | refl => exact ⟨rfl, rfl⟩
  | tail _ hbc ih =>
    rcases bumpOnce_cases hbc with ⟨-, -, -, -, rfl⟩ | ⟨-, -, -, -, -, rfl⟩ <;> exact ih

structure Leaves (s s' : Pool) (t : Nat) : Prop where
  pending_eq : pending s' + ((takenJob (s.threads t)).toList : Multiset Job) = pending s
  done_eq : done s' + ((finishedJob (s.threads t)).toList : Multiset Job) = done s
  ran_eq : s'.ran = s.ran
  freed_eq : s'.freed = s.freed
  spawned_eq : s'.spawned = s.spawned
  creators : ∀ u, Creates (s'.threads u) = true → Creates (s.threads u) = true

theorem leaves_setProc {b : Pool} {q : Proc} (hb : Bumped s b)
    (hl : b.ran = s.ran ∧ b.freed = s.freed) (ht : t < s.spawned)
    (hq : (order x : Multiset Job) + x.persistentJob.toList + (takenJob q).toList =
      order b + b.persistentJob.toList)
    (hx : x.threads = b.threads ∧ x.spawned = b.spawned ∧ x.ran = b.ran ∧ x.freed = b.freed)
    (hfin : finishedJob q = none) (hc : Creates q = false) : Leaves s (x.setProc t q) t := by
  obtain ⟨b1, -, b3, -, b5, b6⟩ := hb
  have hxs : x.threads = s.threads := hx.1.trans b5
  have hsp : x.spawned = s.spawned := hx.2.1.trans b6
  have hxt : t < x.spawned := hsp ▸ ht
  refine ⟨?_, ?_, hx.2.2.1.trans hl.1, hx.2.2.2.trans hl.2, hsp, fun u hu ↦ ?_⟩
  · have h := pending_setProc hxt q
    rw [hxs] at h
    rw [h, pending, pending, threadJobs_congr _ hxs hsp, ← b1, ← b3, ← hq]
    abel
  · have h := done_setProc hxt q
    rw [hxs, hfin, Option.toList_none, Multiset.coe_nil, add_zero] at h
    rw [h, done, done, threadJobs_congr _ hxs hsp]
  · rw [setProc_threads, hxs] at hu
    exact creators_update (by simp [hc]) u hu

theorem bumped_bumpPriority (s : Pool) : Bumped s (bumpPriority s) ∧
    (bumpPriority s).ran = s.ran ∧ (bumpPriority s).freed = s.freed :=
  ⟨bumped_bumpLoop _ s, passes_logs (passes_bumpLoop _ s)⟩

theorem leaves_takeJob (ht : t < s.spawned) : Leaves s (takeJob s t) t := by
  obtain ⟨hb, hl⟩ := bumped_bumpPriority s
  unfold takeJob
  dsimp only
  split_ifs
  · exact leaves_setProc hb hl ht (by simp [order, takenJob]) ⟨rfl, rfl, rfl, rfl⟩ rfl rfl
  · split
    · rename_i j hs
      exact leaves_setProc hb hl ht (by simp [order, takenJob, hs]) ⟨rfl, rfl, rfl, rfl⟩ rfl rfl
    · rename_i j high hs hh
      refine leaves_setProc hb hl ht ?_ ⟨rfl, rfl, rfl, rfl⟩ rfl rfl
      simp only [order, takenJob, hs, hh, Option.toList, ← Multiset.coe_add,
        ← Multiset.cons_coe, ← Multiset.singleton_add, Multiset.coe_nil, add_zero]
      abel
    · rename_i j med hs hh hm
      refine leaves_setProc hb hl ht ?_ ⟨rfl, rfl, rfl, rfl⟩ rfl rfl
      simp only [order, takenJob, hs, hh, hm, Option.toList, ← Multiset.coe_add,
        ← Multiset.cons_coe, ← Multiset.singleton_add, Multiset.coe_nil, add_zero]
      abel
    · rename_i j low hs hh hm hlo
      refine leaves_setProc hb hl ht ?_ ⟨rfl, rfl, rfl, rfl⟩ rfl rfl
      simp only [order, takenJob, hs, hh, hm, hlo, Option.toList, ← Multiset.coe_add,
        ← Multiset.cons_coe, ← Multiset.singleton_add, Multiset.coe_nil, add_zero]
      abel
    · exact leaves_setProc hb hl ht (by simp [order, takenJob]) ⟨rfl, rfl, rfl, rfl⟩ rfl rfl

theorem leaves_workerLoop (ht : t < s.spawned) (timedOut : Bool) (p : Int) :
    Leaves s (workerLoop s t timedOut p) t := by
  unfold workerLoop
  split_ifs
  all_goals first
    | exact leaves_takeJob ht
    | exact leaves_setProc (.refl s) ⟨rfl, rfl⟩ ht (by simp [order, takenJob])
        ⟨rfl, rfl, rfl, rfl⟩ rfl rfl

theorem lifeStep_workerTop {job : Option Job} {q : Int} (ht : t < s.spawned)
    (hp : s.threads t = .top job q) : LifeStep s (workerTop s t job q) t := by
  have key (x : Pool) (e1 : x.threads = s.threads) (e2 : x.spawned = s.spawned)
      (e3 : order x = order s) (e4 : x.persistentJob = s.persistentJob) (e5 : x.ran = s.ran)
      (e6 : x.freed = s.freed ++ job.toList) : LifeStep s (workerLoop x t false q) t := by
    have hl := leaves_workerLoop (s := x) (e2 ▸ ht) false q
    have hp' : x.threads t = .top job q := by rw [e1, hp]
    have h1 := hl.pending_eq
    have h2 := hl.done_eq
    rw [hp'] at h1 h2
    refine ⟨.free 0 job.toList job.toList ?_ ?_ (hl.ran_eq.trans e5) (hl.freed_eq.trans e6)
      (zero_add _).symm (absurd rfl), (hl.spawned_eq.trans e2).ge,
      fun u hu ↦ by simpa [e1] using hl.creators u hu⟩
    · have e : pending x = pending s := by rw [pending, pending, e3, e4, threadJobs_congr _ e1 e2]
      simpa [takenJob, e] using h1
    · simpa [finishedJob, done, threadJobs_congr _ e1 e2] using h2
  unfold workerTop
  cases job <;> dsimp only <;> split_ifs <;> exact key _ rfl rfl rfl rfl rfl (by simp)

theorem lifeStep_running {j : Job} {q : Int} (ht : t < s.spawned)
    (hp : s.threads t = .running j q) :
    LifeStep s ({ s with ran := s.ran ++ [j] }.setProc t (.top (some j) q)) t := by
  have h1 := pending_setProc (s := { s with ran := s.ran ++ [j] }) ht (.top (some j) q)
  have h2 := done_setProc (s := { s with ran := s.ran ++ [j] }) ht (.top (some j) q)
  simp only [hp, takenJob, finishedJob, Option.toList, Multiset.coe_nil, add_zero] at h1 h2
  refine ⟨.run j ⟨q, hp⟩ (h1.trans rfl) (h2.trans rfl) rfl rfl, le_rfl,
    fun u hu ↦ creators_update (fun h ↦ by cases h) u hu⟩

theorem Leaves.lifeStep (h : Leaves s s' t) (h0 : Jobless (s.threads t)) : LifeStep s s' t := by
  have h1 := h.pending_eq
  have h2 := h.done_eq
  rw [h0.1, Option.toList_none, Multiset.coe_nil, add_zero] at h1
  rw [h0.2, Option.toList_none, Multiset.coe_nil, add_zero] at h2
  exact ⟨.keep h1 h2 h.ran_eq h.freed_eq, h.spawned_eq.ge, h.creators⟩

theorem lt_spawned_of_stepProc {i : Input} (hb : Books s) (h : stepProc i t s = some s') :
    t < s.spawned := by
  by_contra hc
  rw [Machine.stepProc, hb.fresh t (by omega)] at h
  cases h

theorem lifeStep_stepProc {i : Input} (hb : Books s) (h : stepProc i t s = some s') :
    LifeStep s s' t := by
  have ht := lt_spawned_of_stepProc hb h
  have jobless {p : Proc} (hp : s.threads t = p) (h1 : takenJob p = none)
      (h2 : finishedJob p = none) : Jobless (s.threads t) := hp ▸ ⟨h1, h2⟩
  unfold stepProc at h
  cases hp : s.threads t <;> simp only [hp, Option.some.injEq, reduceCtorEq] at h <;>
    try subst h
  case startPool => exact (still_startPool ht (jobless hp rfl rfl) _).lifeStep
  case callAddJob => exact lifeStep_addJob ht hp
  case callAddPersistent => exact lifeStep_addPersistent ht hp
  case callSetAttr => exact (still_setAttr ht (jobless hp rfl rfl) _ _).lifeStep
  case callShutdown => exact lifeStep_shutdownStart ht (jobless hp rfl rfl) _
  case waitPending k =>
    split_ifs at h
    cases h
    exact lifeStep_createWorkerCheck ht (jobless hp rfl rfl)
      (by rw [hp, creates_waitPending]; exact id)
  case waitStarted k =>
    split_ifs at h
    cases h
    exact lifeStep_createDone ht (jobless hp rfl rfl) (by rw [hp]; exact id)
  case waitPersistent =>
    split_ifs at h
    cases h
    exact Still.lifeStep (still_setProc ht (jobless hp rfl rfl) ⟨by rfl, by rfl⟩
      (fun h ↦ by cases h) ⟨rfl, rfl, rfl, rfl, rfl, rfl⟩)
  case waitShutdown =>
    split_ifs at h
    cases h
    exact Still.lifeStep (still_setProc ht (jobless hp rfl rfl) ⟨by rfl, by rfl⟩
      (fun h ↦ by cases h) (same_refl s))
  case starting =>
    exact Still.lifeStep (still_setProc ht (jobless hp rfl rfl) ⟨by rfl, by rfl⟩
      (fun h ↦ by cases h) ⟨rfl, rfl, rfl, rfl, rfl, rfl⟩)
  case top => exact lifeStep_workerTop ht hp
  case waiting => exact (leaves_workerLoop ht _ _).lifeStep (jobless hp rfl rfl)
  case running => exact lifeStep_running ht hp

def seen (s : Pool) : Multiset Job :=
  pending s + done s + s.ran + s.freed

/-- No job is pending and run, run twice or deleted twice, or deleted while pending or held after
its run; every job's maker is a started thread past the point that makes it. -/
structure LifeInv (s : Pool) : Prop where
  runOnce : (pending s + s.ran).Nodup
  freeOnce : (pending s + done s + s.freed).Nodup
  owners : ∀ j ∈ seen s, j.owner < s.spawned ∧ Creates (s.threads j.owner) = false

theorem lifeInv_initial (attr : Attr) : LifeInv (Pool.initial attr) := by
  have h : pending (Pool.initial attr) = 0 ∧ done (Pool.initial attr) = 0 := ⟨rfl, rfl⟩
  refine ⟨?_, ?_, fun j hj ↦ ?_⟩
  · rw [h.1]; exact Multiset.nodup_zero
  · rw [h.1, h.2]; exact Multiset.nodup_zero
  · rw [seen, h.1, h.2] at hj
    simp [Pool.initial] at hj

theorem run_le_seen (s : Pool) : pending s + s.ran ≤ seen s :=
  Multiset.le_iff_exists_add.2 ⟨done s + s.freed, by rw [seen]; abel⟩

theorem free_le_seen (s : Pool) : pending s + done s + s.freed ≤ seen s :=
  Multiset.le_iff_exists_add.2 ⟨s.ran, by rw [seen]; abel⟩

theorem LifeInv.owner (hi : LifeInv s) (h : LifeStep s s' t) {j : Job} (hj : j ∈ seen s) :
    j.owner < s'.spawned ∧ Creates (s'.threads j.owner) = false :=
  ⟨(hi.owners j hj).1.trans_le h.spawned, Bool.eq_false_iff.2 fun hc ↦ by
    simpa [(hi.owners j hj).2] using h.creators _ hc⟩

theorem LifeInv.lifeStep (hi : LifeInv s) (h : LifeStep s s' t) (ht : t < s.spawned) :
    LifeInv s' := by
  cases h.move with
  | keep hp hd hr hf =>
    have hs : seen s' = seen s := by rw [seen, seen, hp, hd, hr, hf]
    refine ⟨?_, ?_, fun j hj ↦ hi.owner h (hs ▸ hj)⟩
    · rw [hp, hr]; exact hi.runOnce
    · rw [hp, hd, hf]; exact hi.freeOnce
  | make j hj hc hc' hp hd hr hf =>
    have hnew : j ∉ seen s := fun hs ↦ by
      have := (hi.owners j hs).2
      rw [hj, hc] at this
      cases this
    have hle : seen s' ≤ j ::ₘ seen s := by
      rw [seen, seen, hd, hr, hf, ← Multiset.cons_add, ← Multiset.cons_add,
        ← Multiset.cons_add]
      exact add_le_add_right (add_le_add_right (add_le_add_right hp _) _) _
    refine ⟨?_, ?_, fun j' hj' ↦ ?_⟩
    · have hle' : pending s' + s'.ran ≤ j ::ₘ (pending s + s.ran) := by
        rw [hr, ← Multiset.cons_add]
        exact add_le_add_right hp _
      refine Multiset.nodup_of_le hle' (Multiset.nodup_cons.2 ⟨fun h' ↦ hnew ?_, hi.runOnce⟩)
      exact Multiset.mem_of_le (run_le_seen s) h'
    · have hle' : pending s' + done s' + s'.freed ≤ j ::ₘ (pending s + done s + s.freed) := by
        rw [hd, hf, ← Multiset.cons_add, ← Multiset.cons_add]
        exact add_le_add_right (add_le_add_right hp _) _
      refine Multiset.nodup_of_le hle' (Multiset.nodup_cons.2 ⟨fun h' ↦ hnew ?_, hi.freeOnce⟩)
      exact Multiset.mem_of_le (free_le_seen s) h'
    · rcases Multiset.mem_cons.1 (Multiset.mem_of_le hle hj') with rfl | hj'
      · exact ⟨hj ▸ ht.trans_le h.spawned, hj ▸ hc'⟩
      · exact hi.owner h hj'
  | run j _ hp hd hr hf =>
    have hj : j ∈ seen s := Multiset.mem_of_le (run_le_seen s) (by rw [← hp]; simp)
    have e1 : pending s' + s'.ran = pending s + s.ran := by
      rw [hr, ← hp, ← Multiset.coe_add, Multiset.coe_singleton]
      abel
    have e2 : pending s' + done s' + s'.freed = pending s + done s + s.freed := by
      rw [hd, hf, ← hp]
      abel
    have hs : seen s' = seen s + {j} := by
      rw [seen, seen, hd, hr, hf, ← hp, ← Multiset.coe_add, Multiset.coe_singleton]
      abel
    refine ⟨e1 ▸ hi.runOnce, e2 ▸ hi.freeOnce, fun j' hj' ↦ ?_⟩
    rw [hs, Multiset.mem_add, Multiset.mem_singleton] at hj'
    rcases hj' with hj' | rfl
    exacts [hi.owner h hj', hi.owner h hj]
  | free X Y Z hp hd hr hf hz _ =>
    have hs : seen s' = seen s := by
      rw [seen, seen, hr, hf, ← Multiset.coe_add, hz, ← hp, ← hd]
      abel
    have e2 : pending s' + done s' + s'.freed = pending s + done s + s.freed := by
      rw [hf, ← Multiset.coe_add, hz, ← hp, ← hd]
      abel
    refine ⟨Multiset.nodup_of_le ?_ hi.runOnce, e2 ▸ hi.freeOnce,
      fun j hj ↦ hi.owner h (hs ▸ hj)⟩
    rw [hr, ← hp, add_right_comm]
    exact Multiset.le_add_right _ _

theorem jobless_of_isCall {p : Proc} (hp : isCall p = true) : Jobless p := by
  cases p <;> simp_all [isCall, Jobless, takenJob, finishedJob]

theorem spawn_jobs {p : Proc} (hp : isCall p = true) :
    pending (s.spawn p) = pending s ∧ done (s.spawn p) = done s := by
  have hjobs (f : Proc → Option Job) (hf : f p = none) :
      threadJobs (s.spawn p) f = threadJobs s f :=
    threadJobs_eq (Nat.le_succ _)
      (fun u hu ↦ by simp [Pool.spawn, Function.update_noteq (Nat.ne_of_lt hu)])
      (fun u h1 h2 ↦ by
        obtain rfl : u = s.spawned := by simp only [Pool.spawn] at h2; omega
        simpa [Pool.spawn] using hf)
  exact ⟨by rw [pending, pending, hjobs _ (jobless_of_isCall hp).1]; rfl,
    hjobs _ (jobless_of_isCall hp).2⟩

theorem LifeInv.spawn (hi : LifeInv s) {p : Proc} (hp : isCall p = true) :
    LifeInv (s.spawn p) := by
  obtain ⟨e1, e2⟩ := spawn_jobs hp
  refine ⟨by rw [e1]; exact hi.runOnce, by rw [e1, e2]; exact hi.freeOnce, fun j hj ↦ ?_⟩
  obtain ⟨hlt, hc⟩ := hi.owners j (by rwa [seen, e1, e2] at hj)
  exact ⟨by simp only [Pool.spawn]; omega,
    by simpa [Pool.spawn, Function.update_noteq (Nat.ne_of_lt hlt)] using hc⟩

theorem LifeInv.step (hb : Books s) (hi : LifeInv s) (h : Step s s') : LifeInv s' := by
  cases h with
  | call p hp => exact hi.spawn hp
  | tick d => exact ⟨hi.runOnce, hi.freeOnce, hi.owners⟩
  | run t i h => exact hi.lifeStep (lifeStep_stepProc hb h) (lt_spawned_of_stepProc hb h)

theorem lifeInv_run {attr : Attr} (r : Run attr) (k : Nat) : LifeInv (r.state k) := by
  induction k with
  | zero => rw [r.start]; exact lifeInv_initial attr
  | succ k ih =>
    rcases r.step k with h | h
    · exact ih.step (books_run r k) h
    · rw [h]; exact ih

theorem LifeStep.logs (h : LifeStep s s' t) : s.ran <+: s'.ran ∧ s.freed <+: s'.freed := by
  cases h.move with
  | keep _ _ hr hf => rw [hr, hf]; exact ⟨List.prefix_refl _, List.prefix_refl _⟩
  | make _ _ _ _ _ _ hr hf => rw [hr, hf]; exact ⟨List.prefix_refl _, List.prefix_refl _⟩
  | run _ _ _ _ hr hf => rw [hr, hf]; exact ⟨List.prefix_append _ _, List.prefix_refl _⟩
  | free _ _ _ _ _ hr hf _ _ => rw [hr, hf]; exact ⟨List.prefix_refl _, List.prefix_append _ _⟩

theorem LifeStep.ran_mem (h : LifeStep s s' t) {j : Job} (hj : j ∈ s'.ran) :
    j ∈ s.ran ∨ ∃ q, s.threads t = .running j q := by
  cases h.move with
  | run j' hq _ _ hr _ =>
    rw [hr, List.mem_append, List.mem_singleton] at hj
    rcases hj with hj | rfl
    exacts [.inl hj, .inr hq]
  | keep _ _ hr _ | make _ _ _ _ _ _ hr _ | free _ _ _ _ _ hr _ _ _ => exact .inl (hr ▸ hj)

theorem logs_step (hb : Books s) (h : Step s s') : s.ran <+: s'.ran ∧ s.freed <+: s'.freed := by
  cases h with
  | run t i h => exact (lifeStep_stepProc hb h).logs
  | _ => exact ⟨List.prefix_refl _, List.prefix_refl _⟩

theorem logs_run {attr : Attr} (r : Run attr) {k m : Nat} (hkm : k ≤ m) :
    (r.state k).ran <+: (r.state m).ran ∧ (r.state k).freed <+: (r.state m).freed := by
  induction m, hkm using Nat.le_induction with
  | base => exact ⟨List.prefix_refl _, List.prefix_refl _⟩
  | succ m _ ih =>
    rcases r.step m with h | h
    · have := logs_step (books_run r m) h
      exact ⟨ih.1.trans this.1, ih.2.trans this.2⟩
    · rw [h]; exact ih

theorem mem_threadJobs (hb : Books s) {f : Proc → Option Job} (hf : f .idle = none) {j : Job}
    {u : Nat} (h : f (s.threads u) = some j) : j ∈ threadJobs s f := by
  have hu : u < s.spawned := by
    by_contra hc
    rw [hb.fresh u (by omega), hf] at h
    cases h
  simp only [threadJobs, Multiset.mem_coe, List.mem_filterMap, List.mem_range]
  exact ⟨u, hu, h⟩

def Gone (s : Pool) (j : Job) : Prop :=
  j ∉ order s ∧ s.persistentJob ≠ some j ∧ ∀ u q, s.threads u ≠ .running j q

theorem gone_of_not_mem (hb : Books s) {j : Job} (hj : j ∉ pending s) : Gone s j := by
  refine ⟨fun h ↦ hj ?_, fun h ↦ hj ?_, fun u q h ↦ hj ?_⟩
  · exact Multiset.mem_add.2 (.inl (Multiset.mem_add.2 (.inl (Multiset.mem_coe.2 h))))
  · exact Multiset.mem_add.2 (.inl (Multiset.mem_add.2 (.inr (by simp [h]))))
  · exact Multiset.mem_add.2 (.inr (mem_threadJobs hb rfl (by rw [h]; rfl)))

/-- Over every run each job is run at most once and deleted at most once, a job that has run is
held nowhere but by its worker until deleted, and the logs of runs and deletions only grow. -/
theorem job_lifecycle {attr : Attr} (r : Run attr) (k : Nat) :
    (r.state k).ran.Nodup ∧ (r.state k).freed.Nodup ∧
      (∀ j ∈ (r.state k).ran, Gone (r.state k) j) ∧
      (∀ j ∈ (r.state k).freed,
        Gone (r.state k) j ∧ ∀ u q, (r.state k).threads u ≠ .top (some j) q) ∧
      ∀ m, k ≤ m →
        (r.state k).ran <+: (r.state m).ran ∧ (r.state k).freed <+: (r.state m).freed := by
  have hi := lifeInv_run r k
  have hb := books_run r k
  have h1 := Multiset.nodup_add.1 hi.runOnce
  have h2 := Multiset.nodup_add.1 hi.freeOnce
  refine ⟨h1.2.1, h2.2.1, fun j hj ↦ gone_of_not_mem hb fun hp ↦
    Multiset.disjoint_left.1 h1.2.2 hp hj, fun j hj ↦ ?_, fun m ↦ logs_run r⟩
  have hj' : j ∉ pending (r.state k) + done (r.state k) :=
    fun hp ↦ Multiset.disjoint_left.1 h2.2.2 hp hj
  exact ⟨gone_of_not_mem hb fun hp ↦ hj' (Multiset.mem_add.2 (.inl hp)), fun u q h ↦
    hj' (Multiset.mem_add.2 (.inr (mem_threadJobs hb rfl (by rw [h]; rfl))))⟩

end Npupnp.Pool.Lifecycle
