import Npupnp.Pool.Lifecycle

namespace Npupnp.Pool.Shutdown

open Machine Accounting Bump Lifecycle

variable {s s' : Pool} {t : Nat}

@[simp] theorem setProc_shuttingdown (p : Proc) :
    (s.setProc t p).shuttingdown = s.shuttingdown := rfl

@[simp] theorem createWorkerCheck_shuttingdown (k : Caller) :
    (createWorkerCheck s t k).shuttingdown = s.shuttingdown := by
  unfold createWorkerCheck createFailed
  split_ifs
  · cases k <;> rfl
  · rfl

@[simp] theorem createWorker_shuttingdown (k : Caller) :
    (createWorker s t k).shuttingdown = s.shuttingdown := by
  unfold createWorker
  split_ifs <;> simp

@[simp] theorem createDone_shuttingdown (k : Caller) :
    (createDone s t k).shuttingdown = s.shuttingdown := by
  cases k <;> simp only [createDone] <;> (try split_ifs) <;> simp [addJobDone, persistentSet]

@[simp] theorem startPool_shuttingdown (policyOk : Bool) :
    (startPool s t policyOk).shuttingdown = s.shuttingdown := by
  unfold startPool
  split_ifs <;> simp

@[simp] theorem addJob_shuttingdown (p : Priority) :
    (addJob s t p).shuttingdown = s.shuttingdown := by
  unfold addJob
  split_ifs
  · rfl
  · cases p <;> dsimp only <;> split_ifs <;> simp [addJobDone]

@[simp] theorem addPersistent_shuttingdown (p : Priority) :
    (addPersistent s t p).shuttingdown = s.shuttingdown := by
  unfold addPersistent
  split_ifs <;> simp [persistentSet]

@[simp] theorem setAttr_shuttingdown (policyOk : Bool) (attr : Attr) :
    (setAttr s t policyOk attr).shuttingdown = s.shuttingdown := by
  unfold setAttr
  split_ifs <;> simp

@[simp] theorem shutdownStart_shuttingdown (rc : Ret) :
    (shutdownStart s t rc).shuttingdown = true := by
  unfold shutdownStart
  dsimp only
  split_ifs <;> rfl

theorem bumpPriority_shuttingdown (s : Pool) : (bumpPriority s).shuttingdown = s.shuttingdown :=
  (bumpLoop_same _ s).2.2

theorem bumpPriority_threads (s : Pool) : (bumpPriority s).threads = s.threads :=
  (bumpLoop_same _ s).1.2.2.2.2.1

@[simp] theorem takeJob_shuttingdown : (takeJob s t).shuttingdown = s.shuttingdown := by
  unfold takeJob
  dsimp only
  split_ifs
  · exact bumpPriority_shuttingdown s
  · split <;> exact bumpPriority_shuttingdown s

@[simp] theorem workerLoop_shuttingdown (timedOut : Bool) (q : Int) :
    (workerLoop s t timedOut q).shuttingdown = s.shuttingdown := by
  unfold workerLoop
  split_ifs <;> simp [exitWorker]

@[simp] theorem workerTop_shuttingdown (job : Option Job) (q : Int) :
    (workerTop s t job q).shuttingdown = s.shuttingdown := by
  unfold workerTop
  cases job <;> dsimp only <;> split_ifs <;> simp

theorem stepProc_shuttingdown {i : Input} (hs : s.shuttingdown = true)
    (h : stepProc i t s = some s') : s'.shuttingdown = true := by
  unfold stepProc at h
  cases hp : s.threads t <;> simp only [hp, Option.some.injEq, reduceCtorEq] at h
  all_goals first
    | (subst h; simp [hs])
    | (split_ifs at h; cases h; simp [hs])

theorem workerLoop_of_shutdown (hs : s.shuttingdown = true) (timedOut : Bool) (q : Int) :
    (workerLoop s t timedOut q).threads = Function.update s.threads t .exited := by
  unfold workerLoop
  rw [if_neg (by simp [hs])]
  unfold takeJob
  simp only [bumpPriority_shuttingdown, hs, ↓reduceIte, exitWorker, setProc_threads,
    bumpPriority_threads]

theorem workerTop_of_shutdown (hs : s.shuttingdown = true) (job : Option Job) (q : Int) :
    (workerTop s t job q).threads = Function.update s.threads t .exited := by
  unfold workerTop
  cases job <;> dsimp only <;> split_ifs <;>
    exact workerLoop_of_shutdown (by exact hs) _ _

theorem worker_after_shutdown {i : Input} (hs : s.shuttingdown = true)
    (hc : isCaller (s.threads t) = false) (h : stepProc i t s = some s') :
    ∃ p, (∀ j q, p ≠ .running j q) ∧ s'.threads = Function.update s.threads t p := by
  unfold Machine.stepProc at h
  cases hp : s.threads t <;> rw [hp] at h hc <;>
    simp only [isCaller, Option.some.injEq, reduceCtorEq, Bool.true_eq_false] at hc h <;>
    subst h
  case starting => exact ⟨.top none (-1), fun _ _ ↦ nofun, rfl⟩
  case top job q => exact ⟨.exited, fun _ _ ↦ nofun, workerTop_of_shutdown hs job q⟩
  case waiting q => exact ⟨.exited, fun _ _ ↦ nofun, workerLoop_of_shutdown hs _ q⟩
  case running j q => exact ⟨.top (some j) q, fun _ _ ↦ nofun, rfl⟩

theorem threads_after_shutdown {i : Input} (hb : Books s) (hs : s.shuttingdown = true)
    (h : stepProc i t s = some s') :
    ∃ p, (∀ j q, p ≠ .running j q) ∧ (s'.threads = Function.update s.threads t p ∨
      s'.threads = Function.update (Function.update s.threads s.spawned .starting) t p) := by
  cases hc : isCaller (s.threads t)
  · exact (worker_after_shutdown hs hc h).imp fun _ ↦ And.imp_right .inl
  · obtain ⟨-, -, -, p, hp, -, h⟩ := callerStep_stepProc hc (hb.divisor t) hb.threads_nonneg h
    refine ⟨p, fun j q e ↦ by simp [e, isCaller] at hp, ?_⟩
    rcases h with ⟨h, -⟩ | ⟨-, -, h, -⟩
    exacts [.inl h, .inr h]

theorem running_of_update {g : Nat → Proc} {p : Proc} {u : Nat} {j : Job} {q : Int}
    (hu : Function.update g t p u = .running j q) (hp : ∀ j q, p ≠ .running j q) :
    g u = .running j q := by
  rw [Function.update_apply] at hu
  split_ifs at hu
  · exact absurd hu (hp j q)
  · exact hu

theorem step_after_shutdown (hb : Books s) (hs : s.shuttingdown = true) (h : Step s s') :
    s'.shuttingdown = true ∧
      (∀ u j q, s'.threads u = .running j q → s.threads u = .running j q) ∧
      ∀ j ∈ s'.ran, j ∈ s.ran ∨ ∃ u q, s.threads u = .running j q := by
  cases h with
  | call p hp =>
    exact ⟨hs, fun u j q hu ↦ running_of_update hu fun j q e ↦ by simp [e, isCall] at hp,
      fun j hj ↦ .inl hj⟩
  | tick d => exact ⟨hs, fun u j q hu ↦ hu, fun j hj ↦ .inl hj⟩
  | run t i h =>
    refine ⟨stepProc_shuttingdown hs h, fun u j q hu ↦ ?_, fun j hj ↦ ?_⟩
    · obtain ⟨p, hp, e | e⟩ := threads_after_shutdown hb hs h <;> rw [e] at hu
      · exact running_of_update hu hp
      · exact running_of_update (running_of_update hu hp) fun _ _ ↦ nofun
    · exact ((lifeStep_stepProc hb h).ran_mem hj).imp_right fun ⟨q, hq⟩ ↦ ⟨t, q, hq⟩

/-- Once `shutdown` raises `shuttingdown` it stays raised and no worker takes a job; every later run
is of a job already run or held, so jobs queued after it never run. -/
theorem shutdown_final {attr : Attr} (r : Run attr) {k m : Nat} (hkm : k ≤ m)
    (hs : (r.state k).shuttingdown = true) :
    (r.state m).shuttingdown = true ∧
      (∀ u j q, (r.state m).threads u = .running j q → (r.state k).threads u = .running j q) ∧
      ∀ j ∈ (r.state m).ran, j ∈ (r.state k).ran ∨ ∃ u q, (r.state k).threads u = .running j q := by
  induction m, hkm using Nat.le_induction with
  | base => exact ⟨hs, fun _ _ _ h ↦ h, fun _ h ↦ .inl h⟩
  | succ m _ ih =>
    obtain ⟨h1, h2, h3⟩ := ih
    rcases r.step m with h | h
    · obtain ⟨e1, e2, e3⟩ := step_after_shutdown (books_run r m) h1 h
      refine ⟨e1, fun u j q hu ↦ h2 u j q (e2 u j q hu), fun j hj ↦ ?_⟩
      rcases e3 j hj with hj | ⟨u, q, hu⟩
      exacts [h3 j hj, .inr ⟨u, q, h2 u j q hu⟩]
    · rw [h]
      exact ⟨h1, h2, h3⟩

def shutdownRun : Run ⟨1, 2, 100, 10, 10, 500⟩ :=
  Run.ofExec _ [.run 0 ⟨false, true⟩, .run 1 ⟨false, true⟩, .run 0 ⟨false, true⟩,
    .call (.callAddJob .med), .run 2 ⟨false, true⟩, .run 1 ⟨false, true⟩,
    .call (.callShutdown .zero), .run 3 ⟨false, true⟩, .run 1 ⟨false, true⟩,
    .run 1 ⟨false, true⟩, .run 3 ⟨false, true⟩] rfl

theorem shutdown_final_running :
    8 ≤ 11 ∧ (shutdownRun.state 8).shuttingdown = true ∧
      ((shutdownRun.state 11).shuttingdown = true ∧
        (∀ u j q, (shutdownRun.state 11).threads u = .running j q →
          (shutdownRun.state 8).threads u = .running j q) ∧
        ∀ j ∈ (shutdownRun.state 11).ran, j ∈ (shutdownRun.state 8).ran ∨
          ∃ u q, (shutdownRun.state 8).threads u = .running j q) :=
  ⟨by decide, rfl, shutdown_final shutdownRun (by decide) rfl⟩

theorem mem_done (hb : Books s) {j : Job} : j ∈ done s ↔ ∃ u q, s.threads u = .top (some j) q := by
  refine ⟨fun h ↦ ?_, fun ⟨u, q, h⟩ ↦ mem_threadJobs hb rfl (by rw [h]; rfl)⟩
  simp only [done, threadJobs, Multiset.mem_coe, List.mem_filterMap] at h
  obtain ⟨u, -, hu⟩ := h
  cases hp : s.threads u with
  | top job q => exact ⟨u, q, by rw [hp, show job = some j by simpa [hp, finishedJob] using hu]⟩
  | _ => simp [hp, finishedJob] at hu

/-- A job that has run is deleted or held by its worker back at the loop head; such a worker
holds a job that has run; and a job deleted without having run was deleted with the flag up. -/
structure DeleteInv (s : Pool) : Prop where
  ranFreed : ∀ j ∈ s.ran, j ∈ s.freed ∨ j ∈ done s
  doneRan : ∀ j ∈ done s, j ∈ s.ran
  unrun : ∀ j ∈ s.freed, j ∉ s.ran → s.shuttingdown = true

theorem DeleteInv.lifeStep (hi : DeleteInv s) (h : LifeStep s s' t)
    (hs : s.shuttingdown = true → s'.shuttingdown = true) : DeleteInv s' := by
  have same (hd : done s' = done s) (hr : s'.ran = s.ran) (hf : s'.freed = s.freed) :
      DeleteInv s' :=
    ⟨fun j hj ↦ by rw [hf, hd]; exact hi.ranFreed j (hr ▸ hj),
      fun j hj ↦ by rw [hr]; exact hi.doneRan j (hd ▸ hj),
      fun j hj hn ↦ hs (hi.unrun j (hf ▸ hj) (hr ▸ hn))⟩
  cases h.move with
  | keep _ hd hr hf => exact same hd hr hf
  | make _ _ _ _ _ hd hr hf => exact same hd hr hf
  | run j _ _ hd hr hf =>
    refine ⟨fun j' hj' ↦ ?_, fun j' hj' ↦ ?_,
      fun j' hj' hn ↦ hs (hi.unrun j' (hf ▸ hj') fun h ↦ hn (hr ▸ List.mem_append_left _ h))⟩
    · rw [hr, List.mem_append, List.mem_singleton] at hj'
      rw [hf, hd, Multiset.mem_add, Multiset.mem_singleton]
      rcases hj' with hj' | rfl
      exacts [(hi.ranFreed j' hj').imp_right .inl, .inr (.inr rfl)]
    · rw [hd, Multiset.mem_add, Multiset.mem_singleton] at hj'
      rw [hr, List.mem_append, List.mem_singleton]
      rcases hj' with hj' | rfl
      exacts [.inl (hi.doneRan j' hj'), .inr rfl]
  | free X Y Z _ hd hr hf hz hx =>
    have hZ (j : Job) : j ∈ Z ↔ j ∈ X ∨ j ∈ Y := by rw [← Multiset.mem_coe, hz, Multiset.mem_add]
    refine ⟨fun j hj ↦ ?_, fun j hj ↦ ?_, fun j hj hn ↦ ?_⟩
    · rw [hf, List.mem_append]
      rcases hi.ranFreed j (hr ▸ hj) with h | h
      · exact .inl (.inl h)
      · rw [← hd, Multiset.mem_add] at h
        exact h.elim .inr fun h ↦ .inl (.inr ((hZ j).2 (.inr h)))
    · rw [hr]
      exact hi.doneRan j (hd ▸ Multiset.mem_add.2 (.inl hj))
    · rw [hf, List.mem_append] at hj
      rw [hr] at hn
      rcases hj with hj | hj
      · exact hs (hi.unrun j hj hn)
      · rcases (hZ j).1 hj with hX | hY
        · exact hx (by rintro rfl; simp at hX)
        · exact absurd (hi.doneRan j (hd ▸ Multiset.mem_add.2 (.inr hY))) hn

theorem DeleteInv.step (hb : Books s) (hi : DeleteInv s) (h : Step s s') : DeleteInv s' := by
  have hs : s.shuttingdown = true → s'.shuttingdown = true :=
    fun hs ↦ (step_after_shutdown hb hs h).1
  cases h with
  | call p hp =>
    obtain ⟨-, e⟩ := spawn_jobs (s := s) hp
    exact ⟨fun j hj ↦ by rw [e]; exact hi.ranFreed j hj, fun j hj ↦ hi.doneRan j (e ▸ hj),
      hi.unrun⟩
  | tick d => exact ⟨hi.ranFreed, hi.doneRan, hi.unrun⟩
  | run t i h => exact hi.lifeStep (lifeStep_stepProc hb h) hs

theorem deleteInv_run {attr : Attr} (r : Run attr) (k : Nat) : DeleteInv (r.state k) := by
  induction k with
  | zero =>
    rw [r.start]
    exact ⟨nofun, fun _ h ↦ (nomatch h), nofun⟩
  | succ k ih =>
    rcases r.step k with h | h
    · exact ih.step (books_run r k) h
    · rw [h]
      exact ih

/-- Over every run a job that has run is deleted or held by its worker at the loop head, which
deletes it next, and a job deleted without running was discarded by `shutdown`. -/
theorem jobs_deleted_after_run {attr : Attr} (r : Run attr) (k : Nat) :
    (∀ j ∈ (r.state k).ran,
      j ∈ (r.state k).freed ∨ ∃ u q, (r.state k).threads u = .top (some j) q) ∧
    (∀ u j q, (r.state k).threads u = .top (some j) q → j ∈ (r.state k).ran) ∧
    ∀ j ∈ (r.state k).freed, j ∉ (r.state k).ran → (r.state k).shuttingdown = true := by
  have hi := deleteInv_run r k
  have hd (j : Job) := mem_done (books_run r k) (j := j)
  exact ⟨fun j hj ↦ (hi.ranFreed j hj).imp_right (hd j).1,
    fun u j q hu ↦ hi.doneRan j ((hd j).2 ⟨u, q, hu⟩), hi.unrun⟩

end Npupnp.Pool.Shutdown
