import Mathlib.Data.List.Basic

namespace Npupnp.Pool.Machine

/-- `ThreadPoolAttr`, the fields the pool reads; `schedPolicy` only goes to the scheduler,
whose answer is an input of the steps that call `SetPolicyType`. -/
structure Attr where
  minThreads : Int
  maxThreads : Int
  maxIdleTime : Int
  jobsPerThread : Int
  maxJobsTotal : Int
  starvationTime : Int
  deriving DecidableEq, Repr

/-- `ThreadPoolAttr::INFINITE_THREADS`: `ThreadPool.h` lies outside the sources, and the
worker's own test `maxThreads != -1` fixes the value. -/
def infiniteThreads : Int := -1

inductive Priority
  | low
  | med
  | high
  deriving DecidableEq, Repr

/-- `ThreadPoolJob`. Its `func`, `arg` and `free_func` are stood for by `owner`, the thread
whose call submitted it. -/
structure Job where
  owner : Nat
  priority : Priority
  requestTime : Int
  jobId : Int
  deriving DecidableEq, Repr

/-- The codes the pool's calls return, by name (their values live in `ThreadPool.h`);
`failed` is the -1 of `ThreadPool::start`. -/
inductive Ret
  | zero
  | emaxthreads
  | invalidPolicy
  | failed
  deriving DecidableEq, Repr

/-- Where `createWorker` returns to: the loop of `addWorker` with its `jobs` and `threads`,
`addPersistent`, or the loops of `setAttr` and the constructor with their counter `i`. -/
inductive Caller
  | addWorker (jobs threads : Int)
  | addPersistent (priority : Priority)
  | setAttr (i : Int)
  | start (i : Int)
  deriving DecidableEq, Repr

/-- Where each thread stands between two critical sections of the pool mutex. -/
inductive Proc
  | idle
  | startPool
  | callAddJob (priority : Priority)
  | callAddPersistent (priority : Priority)
  | callSetAttr (attr : Attr)
  | callShutdown (rc : Ret)
  | waitPending (k : Caller)
  | waitStarted (k : Caller)
  | waitPersistent
  | waitShutdown (rc : Ret)
  | returned (rc : Ret)
  | starting
  | top (job : Option Job) (persistent : Int)
  | waiting (persistent : Int)
  | running (job : Job) (persistent : Int)
  | exited
  deriving DecidableEq, Repr

/-- `ThreadPool::Internal` without its statistics, with every thread's program point; `ran`
and `freed` log the calls of `job->func` and of `delete job` (its `free_func`). -/
structure Pool where
  highJobQ : List Job
  medJobQ : List Job
  lowJobQ : List Job
  persistentJob : Option Job
  shuttingdown : Bool
  totalThreads : Int
  pendingWorkerThreadStart : Int
  busyThreads : Int
  persistentThreads : Int
  lastJobId : Int
  attr : Attr
  now : Int
  threads : Nat → Proc
  spawned : Nat
  ran : List Job
  freed : List Job

def Pool.initial (attr : Attr) : Pool where
  highJobQ := []
  medJobQ := []
  lowJobQ := []
  persistentJob := none
  shuttingdown := false
  totalThreads := 0
  pendingWorkerThreadStart := 0
  busyThreads := 0
  persistentThreads := 0
  lastJobId := 0
  attr := attr
  now := 0
  threads := Function.update (fun _ ↦ .idle) 0 .startPool
  spawned := 1
  ran := []
  freed := []

def Pool.setProc (s : Pool) (t : Nat) (p : Proc) : Pool :=
  { s with threads := Function.update s.threads t p }

@[simp] theorem setProc_threads (s : Pool) (t : Nat) (p : Proc) :
    (s.setProc t p).threads = Function.update s.threads t p := rfl

@[simp] theorem setProc_spawned (s : Pool) (t : Nat) (p : Proc) :
    (s.setProc t p).spawned = s.spawned := rfl

@[simp] theorem setProc_totalThreads (s : Pool) (t : Nat) (p : Proc) :
    (s.setProc t p).totalThreads = s.totalThreads := rfl

@[simp] theorem setProc_busyThreads (s : Pool) (t : Nat) (p : Proc) :
    (s.setProc t p).busyThreads = s.busyThreads := rfl

@[simp] theorem setProc_persistentThreads (s : Pool) (t : Nat) (p : Proc) :
    (s.setProc t p).persistentThreads = s.persistentThreads := rfl

@[simp] theorem setProc_pendingWorkerThreadStart (s : Pool) (t : Nat) (p : Proc) :
    (s.setProc t p).pendingWorkerThreadStart = s.pendingWorkerThreadStart := rfl

@[simp] theorem setProc_attr (s : Pool) (t : Nat) (p : Proc) :
    (s.setProc t p).attr = s.attr := rfl

structure Input where
  timedOut : Bool
  policyOk : Bool
  deriving DecidableEq, Repr

def queuedJobs (s : Pool) : Int :=
  s.highJobQ.length + s.lowJobQ.length + s.medJobQ.length

def addJobDone (s : Pool) (t : Nat) : Pool :=
  { s with lastJobId := s.lastJobId + 1 }.setProc t (.returned .zero)

/-- The loop test of `addWorker`. -/
def wantsWorker (s : Pool) (jobs threads : Int) : Bool :=
  threads == 0 || decide (s.attr.jobsPerThread ≤ jobs.tdiv threads) ||
    s.totalThreads == s.busyThreads

/-- `addPersistent` from `new ThreadPoolJob` on: the job goes in the slot and the caller waits
until a worker takes it. -/
def persistentSet (s : Pool) (t : Nat) (priority : Priority) : Pool :=
  { s with persistentJob := some ⟨t, priority, s.now, s.lastJobId⟩ }.setProc t .waitPersistent

/-- `createWorker` returning `EMAXTHREADS`: `addWorker` returns, `addPersistent` goes on,
`setAttr` and the constructor leave their loops and shut the pool down. -/
def createFailed (s : Pool) (t : Nat) : Caller → Pool
  | .addWorker _ _ => addJobDone s t
  | .addPersistent priority => persistentSet s t priority
  | .setAttr _ => s.setProc t (.callShutdown .emaxthreads)
  | .start _ => s.setProc t (.callShutdown .failed)

/-- `createWorker` once no worker start is pending: `EMAXTHREADS` at `maxThreads`, otherwise
a new thread, and a wait for its first section. -/
def createWorkerCheck (s : Pool) (t : Nat) (k : Caller) : Pool :=
  if s.attr.maxThreads ≠ infiniteThreads ∧ s.attr.maxThreads < s.totalThreads + 1 then
    createFailed s t k
  else
    { s with
      threads := Function.update (Function.update s.threads s.spawned .starting) t
        (.waitStarted k)
      spawned := s.spawned + 1
      pendingWorkerThreadStart := 1 }

def createWorker (s : Pool) (t : Nat) (k : Caller) : Pool :=
  if s.pendingWorkerThreadStart ≠ 0 then s.setProc t (.waitPending k)
  else createWorkerCheck s t k

def createDone (s : Pool) (t : Nat) : Caller → Pool
  | .addWorker jobs threads =>
    if wantsWorker s jobs (threads + 1) then createWorker s t (.addWorker jobs (threads + 1))
    else addJobDone s t
  | .addPersistent priority => persistentSet s t priority
  | .setAttr i =>
    if i + 1 < s.attr.minThreads then createWorker s t (.setAttr (i + 1))
    else s.setProc t (.returned .zero)
  | .start i =>
    if i + 1 < s.attr.minThreads then createWorker s t (.start (i + 1))
    else s.setProc t (.returned .zero)

/-- The constructor after its field setup. -/
def startPool (s : Pool) (t : Nat) (policyOk : Bool) : Pool :=
  if ¬ policyOk then s.setProc t (.returned .failed)
  else if 0 < s.attr.minThreads then createWorker s t (.start 0)
  else s.setProc t (.returned .zero)

/-- `addJob`: with `maxJobsTotal` jobs queued it returns 0 without making the job; otherwise
the job goes on its priority's queue and `addWorker` runs. -/
def addJob (s : Pool) (t : Nat) (priority : Priority) : Pool :=
  if s.attr.maxJobsTotal ≤ queuedJobs s then s.setProc t (.returned .zero)
  else
    let job : Job := ⟨t, priority, s.now, s.lastJobId⟩
    let s := match priority with
      | .high => { s with highJobQ := s.highJobQ ++ [job] }
      | .med => { s with medJobQ := s.medJobQ ++ [job] }
      | .low => { s with lowJobQ := s.lowJobQ ++ [job] }
    if wantsWorker s (queuedJobs s) (s.totalThreads - s.persistentThreads) then
      createWorker s t (.addWorker (queuedJobs s) (s.totalThreads - s.persistentThreads))
    else addJobDone s t

def addPersistent (s : Pool) (t : Nat) (priority : Priority) : Pool :=
  if s.totalThreads < s.attr.maxThreads then createWorker s t (.addPersistent priority)
  else if s.totalThreads - s.persistentThreads - 1 = 0 then
    s.setProc t (.returned .emaxthreads)
  else persistentSet s t priority

def setAttr (s : Pool) (t : Nat) (policyOk : Bool) (attr : Attr) : Pool :=
  if ¬ policyOk then s.setProc t (.returned .invalidPolicy)
  else if s.totalThreads < attr.minThreads then
    createWorker { s with attr := attr } t (.setAttr s.totalThreads)
  else { s with attr := attr }.setProc t (.returned .zero)

/-- `Internal::shutdown`'s first section: every queued job and the persistent one are
deleted, `shuttingdown` is raised, and the caller waits for the workers to exit. -/
def shutdownStart (s : Pool) (t : Nat) (rc : Ret) : Pool :=
  let s := { s with
    freed := s.freed ++ s.highJobQ ++ s.medJobQ ++ s.lowJobQ ++ s.persistentJob.toList
    highJobQ := [], medJobQ := [], lowJobQ := [], persistentJob := none
    shuttingdown := true }
  if 0 < s.totalThreads then s.setProc t (.waitShutdown rc) else s.setProc t (.returned rc)

def bumpLow (s : Pool) : Option Pool :=
  match s.lowJobQ with
  | j :: low =>
    if s.attr.maxIdleTime ≤ s.now - j.requestTime then
      some { s with medJobQ := s.medJobQ ++ [j], lowJobQ := low }
    else none
  | [] => none

/-- One pass of the loop of `bumpPriority`: the starved front of the medium queue moves to
the high queue, or else `bumpLow`; `none` when no job moves. -/
def bumpOnce (s : Pool) : Option Pool :=
  match s.medJobQ with
  | j :: med =>
    if s.attr.starvationTime ≤ s.now - j.requestTime then
      some { s with highJobQ := s.highJobQ ++ [j], medJobQ := med }
    else bumpLow s
  | [] => bumpLow s

def bumpLoop : Nat → Pool → Pool
  | 0, s => s
  | fuel + 1, s =>
    match bumpOnce s with
    | some s' => bumpLoop fuel s'
    | none => s

/-- `bumpPriority`: passes until none moves a job; a job moves at most twice, so this fuel
is enough. -/
def bumpPriority (s : Pool) : Pool :=
  bumpLoop (2 * (s.medJobQ.length + s.lowJobQ.length) + 1) s

def exitWorker (s : Pool) (t : Nat) : Pool :=
  { s with totalThreads := s.totalThreads - 1 }.setProc t .exited

/-- A worker out of the wait loop: it bumps starved jobs, stops on shutdown, or takes the persistent
job or the front of the highest non-empty queue and counts itself busy. -/
def takeJob (s : Pool) (t : Nat) : Pool :=
  let s := bumpPriority s
  if s.shuttingdown then exitWorker s t
  else
    match s.persistentJob, s.highJobQ, s.medJobQ, s.lowJobQ with
    | some j, _, _, _ =>
      { s with
        persistentJob := none, persistentThreads := s.persistentThreads + 1
        busyThreads := s.busyThreads + 1 }.setProc t (.running j 1)
    | none, j :: high, _, _ =>
      { s with highJobQ := high, busyThreads := s.busyThreads + 1 }.setProc t (.running j 0)
    | none, [], j :: med, _ =>
      { s with medJobQ := med, busyThreads := s.busyThreads + 1 }.setProc t (.running j 0)
    | none, [], [], j :: low =>
      { s with lowJobQ := low, busyThreads := s.busyThreads + 1 }.setProc t (.running j 0)
    | none, [], [], [] => exitWorker s t

/-- The wait loop of a worker holding the mutex: with no work and no shutdown it exits after
a timeout above `minThreads` or when above `maxThreads`, or else waits. -/
def workerLoop (s : Pool) (t : Nat) (timedOut : Bool) (persistent : Int) : Pool :=
  if s.lowJobQ = [] ∧ s.medJobQ = [] ∧ s.highJobQ = [] ∧ s.persistentJob = none ∧
      s.shuttingdown = false then
    if (timedOut ∧ s.attr.minThreads < s.totalThreads) ∨
        (s.attr.maxThreads ≠ -1 ∧ s.attr.maxThreads < s.totalThreads) then exitWorker s t
    else s.setProc t (.waiting persistent)
  else takeJob s t

/-- The first section of a worker's iteration: the finished job is deleted (calling its
`free_func`), a persistent thread stops counting as one, then the wait loop. -/
def workerTop (s : Pool) (t : Nat) (job : Option Job) (persistent : Int) : Pool :=
  let s := match job with
    | some j => { s with busyThreads := s.busyThreads - 1, freed := s.freed ++ [j] }
    | none => s
  let s := if persistent = 1 then { s with persistentThreads := s.persistentThreads - 1 }
    else s
  workerLoop s t false persistent

/-- The critical section thread `t` runs next, or, for the job itself, the run outside the
mutex; `none` where it is blocked or done. -/
def stepProc (i : Input) (t : Nat) (s : Pool) : Option Pool :=
  match s.threads t with
  | .startPool => some (startPool s t i.policyOk)
  | .callAddJob priority => some (addJob s t priority)
  | .callAddPersistent priority => some (addPersistent s t priority)
  | .callSetAttr attr => some (setAttr s t i.policyOk attr)
  | .callShutdown rc => some (shutdownStart s t rc)
  | .waitPending k =>
    if s.pendingWorkerThreadStart = 0 then some (createWorkerCheck s t k) else none
  | .waitStarted k => if s.pendingWorkerThreadStart = 0 then some (createDone s t k) else none
  | .waitPersistent =>
    if s.persistentJob = none then
      some ({ s with lastJobId := s.lastJobId + 1 }.setProc t (.returned .zero))
    else none
  | .waitShutdown rc => if s.totalThreads ≤ 0 then some (s.setProc t (.returned rc)) else none
  | .starting =>
    some ({ s with totalThreads := s.totalThreads + 1, pendingWorkerThreadStart := 0 }.setProc
      t (.top none (-1)))
  | .top job persistent => some (workerTop s t job persistent)
  | .waiting persistent => some (workerLoop s t i.timedOut persistent)
  | .running job persistent =>
    some ({ s with ran := s.ran ++ [job] }.setProc t (.top (some job) persistent))
  | .idle | .returned _ | .exited => none

def isCall : Proc → Bool
  | .callAddJob _ | .callAddPersistent _ | .callSetAttr _ | .callShutdown .zero => true
  | _ => false

def Pool.spawn (s : Pool) (p : Proc) : Pool :=
  { s with threads := Function.update s.threads s.spawned p, spawned := s.spawned + 1 }

/-- A step of the whole system: a new call, time passing, or one thread's next section. -/
inductive Step (s : Pool) : Pool → Prop
  | call (p : Proc) (hp : isCall p = true) : Step s (s.spawn p)
  | tick (d : Nat) : Step s { s with now := s.now + d }
  | run (t : Nat) (i : Input) {s' : Pool} (h : stepProc i t s = some s') : Step s s'

/-- A run of the pool from its construction with attributes `attr`: each state follows
from the one before by a step, or repeats it once the run has stopped. -/
structure Run (attr : Attr) where
  state : Nat → Pool
  start : state 0 = Pool.initial attr
  step : ∀ k, Step (state k) (state (k + 1)) ∨ state (k + 1) = state k

inductive Move
  | call (p : Proc)
  | tick (d : Nat)
  | run (t : Nat) (i : Input)

def move (s : Pool) : Move → Option Pool
  | .call p => if isCall p then some (s.spawn p) else none
  | .tick d => some { s with now := s.now + d }
  | .run t i => stepProc i t s

def exec (s : Pool) : List Move → Option Pool
  | [] => some s
  | m :: ms => (move s m).bind fun s' ↦ exec s' ms

theorem move_step {s s' : Pool} {m : Move} (h : move s m = some s') : Step s s' := by
  cases m with
  | call p =>
    simp only [move] at h
    split_ifs at h with hp
    cases h
    exact .call p hp
  | tick d => cases h; exact .tick d
  | run t i => exact .run t i h

theorem exec_append (ms ms' : List Move) (s : Pool) :
    exec s (ms ++ ms') = (exec s ms).bind (exec · ms') := by
  induction ms generalizing s with
  | nil => rfl
  | cons m ms ih =>
    simp only [List.cons_append, exec]
    cases move s m with
    | none => rfl
    | some v => exact ih v

def Run.ofExec (attr : Attr) (ms : List Move) (hx : (exec (Pool.initial attr) ms).isSome) :
    Run attr where
  state k := (exec (Pool.initial attr) (ms.take k)).getD (Pool.initial attr)
  start := rfl
  step k := by
    dsimp only
    by_cases hk : k < ms.length
    · have hsplit : ms.take (k + 1) = ms.take k ++ [ms[k]] :=
        (List.take_concat_get' ms k hk).symm
      have hx' : (exec (Pool.initial attr) (ms.take (k + 1))).isSome := by
        rw [← List.take_append_drop (k + 1) ms, exec_append] at hx
        cases h : exec (Pool.initial attr) (ms.take (k + 1)) with
        | none => rw [h] at hx; cases hx
        | some _ => rfl
      rw [hsplit, exec_append] at hx' ⊢
      cases h₁ : exec (Pool.initial attr) (ms.take k) with
      | none => simp [h₁] at hx'
      | some s₁ =>
        cases h₂ : move s₁ ms[k] with
        | none => simp [h₁, exec, h₂] at hx'
        | some s₂ => exact .inl (by simpa [exec, h₂] using move_step h₂)
    · right
      rw [List.take_of_length_le (by omega), List.take_of_length_le (by omega)]

theorem Run.ofExec_state_of_le {attr : Attr} {ms : List Move}
    {hx : (exec (Pool.initial attr) ms).isSome} {k : Nat} (hk : ms.length ≤ k) :
    (Run.ofExec attr ms hx).state k = (exec (Pool.initial attr) ms).getD (Pool.initial attr) := by
  simp [Run.ofExec, List.take_of_length_le hk]

end Npupnp.Pool.Machine
