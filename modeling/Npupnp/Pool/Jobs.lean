import Npupnp.Pool.Machine

namespace Npupnp.Pool.Jobs

open Machine

def currentJob : Proc → Option Job
  | .top job _ => job
  | .running j _ => some j
  | _ => none

/-- Where the pool keeps a job: its three queues, the persistent slot, and the workers' current
jobs. -/
def held (s : Pool) : List Job :=
  s.highJobQ ++ s.medJobQ ++ s.lowJobQ ++ s.persistentJob.toList ++
    (List.range s.spawned).filterMap fun t ↦ currentJob (s.threads t)

/-- Every job the pool has seen: held, run (`job->func` called) or deleted (`free_func`
called). -/
def jobs (s : Pool) : List Job :=
  held s ++ s.ran ++ s.freed

def Absent (s : Pool) (t : Nat) : Prop :=
  ∀ j ∈ jobs s, j.owner ≠ t

instance (s : Pool) (t : Nat) : Decidable (Absent s t) :=
  inferInstanceAs (Decidable (∀ j ∈ jobs s, j.owner ≠ t))

def go : Input := ⟨false, true⟩

/-- One waiting worker, then three medium `addJob`s with `maxJobsTotal = 1`: the worker takes the
first job, the second fills the queue, and the third finds it full. -/
def fullQueue : List Move :=
  [.run 0 go, .run 1 go, .run 0 go, .run 1 go, .call (.callAddJob .med), .run 2 go, .run 1 go,
    .call (.callAddJob .med), .run 3 go, .call (.callAddJob .med), .run 4 go]

/-- Start two workers and let them wait, then two `addPersistent`s that both set the slot
before worker 1 takes it; both callers then return. -/
def overwrite : List Move :=
  [.run 0 go, .run 1 go, .run 0 go, .run 2 go, .run 0 go, .run 1 go, .run 2 go,
    .call (.callAddPersistent .high), .run 3 go, .call (.callAddPersistent .high), .run 4 go,
    .run 1 go, .run 3 go, .run 4 go]

/-- Two schedules in which a call returns 0 and its job is nowhere, never run nor deleted: `addJob`
on a full queue, and a second `addPersistent` overwriting the first one's job in the slot. -/
theorem accepted_job_lost :
    (∃ s, exec (Pool.initial ⟨1, 1, 100, 10, 1, 500⟩) fullQueue = some s ∧
      s.threads 4 = .returned .zero ∧ Absent s 4) ∧
    (∃ s₁, exec (Pool.initial ⟨2, 2, 100, 10, 10, 500⟩) (overwrite.take 9) = some s₁ ∧
      s₁.threads 3 = .waitPersistent ∧ (s₁.persistentJob.map Job.owner) = some 3) ∧
    ∃ s, exec (Pool.initial ⟨2, 2, 100, 10, 10, 500⟩) overwrite = some s ∧
      s.threads 3 = .returned .zero ∧ s.threads 4 = .returned .zero ∧ Absent s 3 ∧
      currentJob (s.threads 1) = some ⟨4, .high, 0, 0⟩ :=
  ⟨⟨_, rfl, rfl, by decide⟩, ⟨_, rfl, rfl, rfl⟩, _, rfl, rfl, rfl, by decide, rfl⟩

/-- A pool with `minThreads = 0` and `maxThreads = 1`: an `addPersistent` starts the only
worker, which takes its job, then a second `addPersistent` on thread 3. -/
def strandFinite : List Move :=
  [.run 0 go, .call (.callAddPersistent .high), .run 1 go, .run 2 go, .run 1 go, .run 2 go,
    .run 1 go, .call (.callAddPersistent .high), .run 3 go]

def strandInfinite : List Move :=
  [.run 0 go, .call (.callAddPersistent .high), .run 1 go]

/-- Two schedules in which `addPersistent` stores its job and waits while no worker can take it,
instead of returning `EMAXTHREADS`: one under `maxThreads = 1`, one under `INFINITE_THREADS`. -/
theorem persistent_job_stranded :
    (∃ s, exec (Pool.initial ⟨0, 1, 100, 10, 10, 500⟩) strandFinite = some s ∧
      s.threads 3 = .waitPersistent ∧ s.persistentJob.map Job.owner = some 3 ∧
      s.threads 2 = .running ⟨1, .high, 0, 0⟩ 1 ∧ s.totalThreads = 1 ∧
      s.persistentThreads = 1 ∧ s.attr.maxThreads ≤ s.totalThreads) ∧
    ∃ s, exec (Pool.initial ⟨0, -1, 100, 10, 10, 500⟩) strandInfinite = some s ∧
      s.threads 1 = .waitPersistent ∧ s.persistentJob.map Job.owner = some 1 ∧
      s.totalThreads = 0 ∧ s.pendingWorkerThreadStart = 0 :=
  ⟨⟨_, rfl, rfl, rfl, rfl, rfl, rfl, by decide⟩, _, rfl, rfl, rfl, rfl, rfl⟩

end Npupnp.Pool.Jobs
