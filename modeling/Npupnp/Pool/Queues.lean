import Mathlib.Data.List.Nodup
import Npupnp.Pool.Accounting

namespace Npupnp.Pool.Queues

open Machine Accounting

/-- The queued jobs in the order the workers take them: the high queue, then the medium one,
then the low one, each from its front. -/
def order (s : Pool) : List Job :=
  s.highJobQ ++ s.medJobQ ++ s.lowJobQ

def LevelOk (s : Pool) : Prop :=
  (∀ j ∈ s.medJobQ, j.priority ≠ .high) ∧ ∀ j ∈ s.lowJobQ, j.priority = .low

def NoNewCall (s s' : Pool) (t : Nat) : Prop :=
  ∀ u p, s'.threads u = .callAddJob p → s.threads u = .callAddJob p ∧ u ≠ t

inductive OrderStep (s s' : Pool) (t : Nat) : Prop
  | keep (h : order s' = order s)
  | take (x : Job) (h : order s = x :: order s')
  | clear (h : order s' = []) (hs : s'.shuttingdown = true)
  | push (p : Priority) (A B : List Job) (hp : s.threads t = .callAddJob p)
      (h₁ : order s = A ++ B) (h₂ : order s' = A ++ ⟨t, p, s.now, s.lastJobId⟩ :: B)
      (hA : LevelOk s → ∀ x ∈ order s, x.priority = p → x ∈ A)

structure QueueStep (s s' : Pool) (t : Nat) : Prop where
  shape : OrderStep s s' t
  calls : NoNewCall s s' t
  spawned : s.spawned ≤ s'.spawned
  level : LevelOk s → LevelOk s'

def Quiet (s s' : Pool) (t : Nat) : Prop :=
  s'.highJobQ = s.highJobQ ∧ s'.medJobQ = s.medJobQ ∧ s'.lowJobQ = s.lowJobQ ∧
    NoNewCall s s' t ∧ s.spawned ≤ s'.spawned

variable {s s' s₁ : Pool} {t : Nat}

theorem noNewCall_update {p : Proc} (hp : ∀ q, p ≠ .callAddJob q)
    (h : s'.threads = Function.update s.threads t p) : NoNewCall s s' t := by
  intro u q hu
  rw [h, Function.update_apply] at hu
  split_ifs at hu with hut
  · exact absurd hu (hp q)
  · exact ⟨hu, hut⟩

theorem NoNewCall.trans (h₁ : NoNewCall s s₁ t) (h₂ : NoNewCall s₁ s' t) : NoNewCall s s' t :=
  fun u p hu ↦ ⟨(h₁ u p (h₂ u p hu).1).1, (h₂ u p hu).2⟩

theorem Quiet.trans (h₁ : Quiet s s₁ t) (h₂ : Quiet s₁ s' t) : Quiet s s' t := by
  obtain ⟨a1, a2, a3, a4, a5⟩ := h₁
  obtain ⟨b1, b2, b3, b4, b5⟩ := h₂
  exact ⟨b1.trans a1, b2.trans a2, b3.trans a3, a4.trans b4, a5.trans b5⟩

theorem quiet_setProc {x : Pool} {p : Proc} (hp : ∀ q, p ≠ .callAddJob q)
    (hq : x.highJobQ = s.highJobQ ∧ x.medJobQ = s.medJobQ ∧ x.lowJobQ = s.lowJobQ)
    (ht : x.threads = s.threads) (hs : x.spawned = s.spawned) : Quiet s (x.setProc t p) t :=
  ⟨hq.1, hq.2.1, hq.2.2, noNewCall_update hp (by simp [ht]), hs.ge⟩

theorem Quiet.queueStep (h : Quiet s s' t) : QueueStep s s' t := by
  obtain ⟨h1, h2, h3, h4, h5⟩ := h
  exact ⟨.keep (by simp [order, h1, h2, h3]), h4, h5, fun hl ↦ by rwa [LevelOk, h2, h3]⟩

theorem quiet_createFailed (s : Pool) (t : Nat) (k : Caller) : Quiet s (createFailed s t k) t := by
  cases k <;> exact quiet_setProc (fun _ h ↦ Proc.noConfusion h) ⟨rfl, rfl, rfl⟩ rfl rfl

theorem quiet_createWorkerCheck (s : Pool) (t : Nat) (k : Caller) :
    Quiet s (createWorkerCheck s t k) t := by
  unfold createWorkerCheck
  split_ifs
  · exact quiet_createFailed s t k
  · refine ⟨rfl, rfl, rfl, fun u q hu ↦ ?_, Nat.le_succ _⟩
    simp only [Function.update_apply] at hu
    split_ifs at hu with h1
    exact ⟨hu, h1⟩

theorem quiet_createWorker (s : Pool) (t : Nat) (k : Caller) : Quiet s (createWorker s t k) t := by
  unfold createWorker
  split_ifs
  · exact quiet_setProc (fun _ h ↦ Proc.noConfusion h) ⟨rfl, rfl, rfl⟩ rfl rfl
  · exact quiet_createWorkerCheck s t k

theorem quiet_createDone (s : Pool) (t : Nat) (k : Caller) : Quiet s (createDone s t k) t := by
  cases k <;> simp only [createDone]
  case addPersistent => exact quiet_setProc (fun _ h ↦ Proc.noConfusion h) ⟨rfl, rfl, rfl⟩ rfl rfl
  all_goals split_ifs
  all_goals first
    | exact quiet_createWorker s t _
    | exact quiet_setProc (fun _ h ↦ Proc.noConfusion h) ⟨rfl, rfl, rfl⟩ rfl rfl

theorem queueStep_push {p : Priority} (hp : s.threads t = .callAddJob p) (hq : Quiet s₁ s' t)
    {A B : List Job} (h₁ : order s = A ++ B) (h₂ : order s₁ = A ++ ⟨t, p, s.now, s.lastJobId⟩ :: B)
    (hA : LevelOk s → ∀ x ∈ order s, x.priority = p → x ∈ A) (hl : LevelOk s → LevelOk s₁)
    (ht : s₁.threads = s.threads) (hsp : s₁.spawned = s.spawned) : QueueStep s s' t := by
  obtain ⟨q1, q2, q3, q4, q5⟩ := hq
  refine ⟨.push p A B hp h₁ (by rw [← h₂]; simp [order, q1, q2, q3]) hA,
    fun u r hu ↦ ?_, hsp ▸ q5, fun hs ↦ ?_⟩
  · rw [← ht]; exact q4 u r hu
  · rw [LevelOk, q2, q3]; exact hl hs

theorem queueStep_addJob {priority : Priority} (hp : s.threads t = .callAddJob priority) :
    QueueStep s (addJob s t priority) t := by
  have rest (s₁ : Pool) : Quiet s₁ (if wantsWorker s₁ (queuedJobs s₁)
      (s₁.totalThreads - s₁.persistentThreads) then createWorker s₁ t (.addWorker (queuedJobs s₁)
      (s₁.totalThreads - s₁.persistentThreads)) else addJobDone s₁ t) t := by
    split_ifs
    · exact quiet_createWorker s₁ t _
    · exact quiet_setProc (fun _ h ↦ Proc.noConfusion h) ⟨rfl, rfl, rfl⟩ rfl rfl
  unfold addJob
  split_ifs
  · exact (quiet_setProc (fun _ h ↦ Proc.noConfusion h) ⟨rfl, rfl, rfl⟩ rfl rfl).queueStep
  · cases priority with
    | low =>
      dsimp only
      refine queueStep_push hp (rest _) (A := order s) (B := []) (by simp) (by simp [order])
        (fun _ x hx _ ↦ hx) (fun ⟨hm, hl⟩ ↦ ⟨hm, ?_⟩) rfl rfl
      simp only [List.mem_append, List.mem_singleton]
      rintro j (hj | rfl)
      exacts [hl j hj, rfl]
    | med =>
      dsimp only
      refine queueStep_push hp (rest _) (A := s.highJobQ ++ s.medJobQ) (B := s.lowJobQ)
        (by simp [order]) (by simp [order]) (fun ⟨_, hl⟩ x hx hpx ↦ ?_)
        (fun ⟨hm, hl⟩ ↦ ⟨?_, hl⟩) rfl rfl
      · simp only [order, List.mem_append] at hx
        exact List.mem_append.2 (hx.resolve_right fun h ↦ by simp [hl x h] at hpx)
      · simp only [List.mem_append, List.mem_singleton]
        rintro j (hj | rfl)
        exacts [hm j hj, by simp]
    | high =>
      dsimp only
      refine queueStep_push hp (rest _) (A := s.highJobQ) (B := s.medJobQ ++ s.lowJobQ)
        (by simp [order]) (by simp [order]) (fun ⟨hm, hl⟩ x hx hpx ↦ ?_) id rfl rfl
      simp only [order, List.mem_append] at hx
      rcases hx with (hx | hx) | hx
      exacts [hx, absurd hpx (hm x hx), by simp [hl x hx] at hpx]

def Bumped (s b : Pool) : Prop :=
  order b = order s ∧ (LevelOk s → LevelOk b) ∧ b.persistentJob = s.persistentJob ∧
    b.shuttingdown = s.shuttingdown ∧ b.threads = s.threads ∧ b.spawned = s.spawned

theorem Bumped.refl (s : Pool) : Bumped s s := ⟨rfl, id, rfl, rfl, rfl, rfl⟩

theorem Bumped.trans (h₁ : Bumped s s₁) (h₂ : Bumped s₁ s') : Bumped s s' := by
  obtain ⟨a1, a2, a3, a4, a5, a6⟩ := h₁
  obtain ⟨b1, b2, b3, b4, b5, b6⟩ := h₂
  exact ⟨b1.trans a1, b2 ∘ a2, b3.trans a3, b4.trans a4, b5.trans a5, b6.trans a6⟩

theorem bumped_bumpLow (h : bumpLow s = some s') : Bumped s s' := by
  unfold bumpLow at h
  split at h
  · rename_i j low hl
    split_ifs at h
    cases h
    refine ⟨by simp [order, hl], fun ⟨hm, hlo⟩ ↦ ⟨?_, fun x hx ↦ hlo x (by simp [hl, hx])⟩,
      rfl, rfl, rfl, rfl⟩
    simp only [List.mem_append, List.mem_singleton]
    rintro x (hx | rfl)
    · exact hm x hx
    · simp [hlo x (by simp [hl])]
  · cases h

theorem bumped_bumpOnce (h : bumpOnce s = some s') : Bumped s s' := by
  unfold bumpOnce at h
  split at h
  · rename_i j med hm
    split_ifs at h
    · cases h
      exact ⟨by simp [order, hm], fun ⟨hm', hlo⟩ ↦ ⟨fun x hx ↦ hm' x (by simp [hm, hx]), hlo⟩,
        rfl, rfl, rfl, rfl⟩
    · exact bumped_bumpLow h
  · exact bumped_bumpLow h

theorem bumped_bumpLoop (n : Nat) (s : Pool) : Bumped s (bumpLoop n s) := by
  induction n generalizing s with
  | zero => exact .refl s
  | succ n ih =>
    unfold bumpLoop
    split
    · rename_i s₁ h
      exact (bumped_bumpOnce h).trans (ih s₁)
    · exact .refl s

theorem queueStep_worker {b : Pool} (hb : Bumped s b) (hl : LevelOk b → LevelOk s')
    (ho : order s' = order b ∨ ∃ x, order b = x :: order s') {p : Proc}
    (hp : ∀ q, p ≠ .callAddJob q) (ht : s'.threads = Function.update b.threads t p)
    (hsp : s'.spawned = b.spawned) : QueueStep s s' t := by
  obtain ⟨b1, b2, -, -, b5, b6⟩ := hb
  refine ⟨?_, noNewCall_update hp (by rw [ht, b5]), by omega, hl ∘ b2⟩
  rcases ho with ho | ⟨x, hx⟩
  · exact .keep (ho.trans b1)
  · exact .take x (b1 ▸ hx)

theorem queueStep_takeJob (hs : Bumped s s₁) (t : Nat) : QueueStep s (takeJob s₁ t) t := by
  have hb : Bumped s (bumpPriority s₁) :=
    hs.trans (bumped_bumpLoop (2 * (s₁.medJobQ.length + s₁.lowJobQ.length) + 1) s₁)
  unfold takeJob
  dsimp only
  split_ifs
  · exact queueStep_worker hb id (.inl rfl) (fun _ h ↦ Proc.noConfusion h) rfl rfl
  · split
    · exact queueStep_worker hb id (.inl rfl) (fun _ h ↦ Proc.noConfusion h) rfl rfl
    · rename_i j high _ hh
      exact queueStep_worker hb id (.inr ⟨j, by simp [order, Pool.setProc, hh]⟩)
        (fun _ h ↦ Proc.noConfusion h) rfl rfl
    · rename_i j med _ hh hm
      exact queueStep_worker hb (fun ⟨h1, h2⟩ ↦ ⟨fun x hx ↦ h1 x (by simp_all [Pool.setProc]), h2⟩)
        (.inr ⟨j, by simp [order, Pool.setProc, hh, hm]⟩) (fun _ h ↦ Proc.noConfusion h) rfl rfl
    · rename_i j low _ hh hm hl
      exact queueStep_worker hb (fun ⟨h1, h2⟩ ↦ ⟨h1, fun x hx ↦ h2 x (by simp_all [Pool.setProc])⟩)
        (.inr ⟨j, by simp [order, Pool.setProc, hh, hm, hl]⟩) (fun _ h ↦ Proc.noConfusion h) rfl rfl
    · exact queueStep_worker hb id (.inl rfl) (fun _ h ↦ Proc.noConfusion h) rfl rfl

theorem queueStep_workerLoop (hs : Bumped s s₁) (t : Nat) (timedOut : Bool) (p : Int) :
    QueueStep s (workerLoop s₁ t timedOut p) t := by
  unfold workerLoop
  split_ifs
  · exact queueStep_worker hs id (.inl rfl) (fun _ h ↦ Proc.noConfusion h) rfl rfl
  · exact queueStep_worker hs id (.inl rfl) (fun _ h ↦ Proc.noConfusion h) rfl rfl
  · exact queueStep_takeJob hs t

theorem queueStep_workerTop (s : Pool) (t : Nat) (job : Option Job) (p : Int) :
    QueueStep s (workerTop s t job p) t := by
  unfold workerTop
  cases job <;> dsimp only <;> split_ifs <;> refine queueStep_workerLoop ?_ t false p <;>
    exact ⟨rfl, id, rfl, rfl, rfl, rfl⟩

theorem queueStep_shutdownStart (s : Pool) (t : Nat) (rc : Ret) :
    QueueStep s (shutdownStart s t rc) t := by
  unfold shutdownStart
  dsimp only
  split_ifs <;>
    exact ⟨.clear rfl rfl, noNewCall_update (fun _ h ↦ Proc.noConfusion h) rfl, le_rfl,
      fun _ ↦ by simp [LevelOk, Pool.setProc]⟩

theorem queueStep_setProc {x : Pool} {p : Proc} (hp : ∀ q, p ≠ .callAddJob q)
    (hq : x.highJobQ = s.highJobQ ∧ x.medJobQ = s.medJobQ ∧ x.lowJobQ = s.lowJobQ)
    (ht : x.threads = s.threads) (hs : x.spawned = s.spawned) : QueueStep s (x.setProc t p) t :=
  (quiet_setProc hp hq ht hs).queueStep

theorem queueStep_stepProc {i : Input} (h : stepProc i t s = some s') : QueueStep s s' t := by
  unfold stepProc at h
  cases hp : s.threads t <;> simp only [hp, Option.some.injEq, reduceCtorEq] at h
  case callAddJob priority => subst h; exact queueStep_addJob hp
  case callShutdown rc => subst h; exact queueStep_shutdownStart s t rc
  case waitPending k =>
    split_ifs at h
    cases h
    exact (quiet_createWorkerCheck s t k).queueStep
  case waitStarted k =>
    split_ifs at h
    cases h
    exact (quiet_createDone s t k).queueStep
  case top job p => subst h; exact queueStep_workerTop s t job p
  case waiting p => subst h; exact queueStep_workerLoop (.refl s) t _ p
  all_goals
    try split_ifs at h
    cases h
    try unfold startPool
    try unfold addPersistent
    try unfold setAttr
    try split_ifs
  all_goals first
    | exact (quiet_createWorker _ t _).queueStep
    | exact Quiet.queueStep (s := s) (quiet_createWorker { s with attr := _ } t _)
    | exact queueStep_setProc (fun _ h ↦ Proc.noConfusion h) ⟨rfl, rfl, rfl⟩ rfl rfl

/-- Each queued job waits at most once, in a queue of its priority or a higher one, and was
made by a thread whose `addJob` section has run. -/
structure QueueInv (s : Pool) : Prop where
  level : LevelOk s
  nodup : (order s).Nodup
  owners : ∀ j ∈ order s, j.owner < s.spawned ∧ ∀ p, s.threads j.owner ≠ .callAddJob p

theorem queueInv_initial (attr : Attr) : QueueInv (Pool.initial attr) :=
  ⟨by simp [LevelOk, Pool.initial], List.nodup_nil, by simp [order, Pool.initial]⟩

theorem order_spawn (s : Pool) (p : Proc) : order (s.spawn p) = order s := rfl

theorem spawn_threads_of_lt {u : Nat} (hu : u < s.spawned) (p : Proc) :
    (s.spawn p).threads u = s.threads u :=
  Function.update_noteq (by omega) _ _

theorem QueueInv.not_mem_push {p : Priority} (hq : QueueInv s) (hp : s.threads t = .callAddJob p)
    {j : Job} (hj : j.owner = t) : j ∉ order s :=
  fun h ↦ (hq.owners j h).2 p (hj ▸ hp)

theorem QueueInv.step (hb : Books s) (hq : QueueInv s) (h : Step s s') : QueueInv s' := by
  cases h with
  | call p hp =>
    exact ⟨hq.level, hq.nodup, fun j hj ↦
      ⟨by simp only [Pool.spawn]; have := (hq.owners j hj).1; omega,
        by rw [spawn_threads_of_lt (hq.owners j hj).1]; exact (hq.owners j hj).2⟩⟩
  | tick d => exact ⟨hq.level, hq.nodup, hq.owners⟩
  | run t i h =>
    have qs := queueStep_stepProc h
    have owner {j : Job} (hj : j ∈ order s) : j.owner < s'.spawned ∧
        ∀ p, s'.threads j.owner ≠ .callAddJob p :=
      ⟨by have := (hq.owners j hj).1; have := qs.spawned; omega,
        fun p hp ↦ (hq.owners j hj).2 p (qs.calls _ p hp).1⟩
    refine ⟨qs.level hq.level, ?_, ?_⟩
    · cases qs.shape with
      | keep e => rw [e]; exact hq.nodup
      | take x e => exact (List.nodup_cons.1 (e ▸ hq.nodup)).2
      | clear e _ => rw [e]; exact .nil
      | push p A B hp h₁ h₂ _ =>
        rw [h₂, List.nodup_middle, List.nodup_cons, ← h₁]
        exact ⟨hq.not_mem_push hp rfl, hq.nodup⟩
    · cases qs.shape with
      | keep e => rw [e]; exact fun j hj ↦ owner hj
      | take x e => exact fun j hj ↦ owner (by rw [e]; exact List.mem_cons_of_mem _ hj)
      | clear e _ => rw [e]; exact fun _ h ↦ nomatch h
      | push p A B hp h₁ h₂ _ =>
        rw [h₂]
        intro j hj
        rcases List.mem_append.1 hj with hj | hj
        · exact owner (h₁ ▸ List.mem_append_left _ hj)
        · rcases List.mem_cons.1 hj with rfl | hj
          · refine ⟨show t < s'.spawned from ?_, fun q hq' ↦ (qs.calls t q hq').2 rfl⟩
            have : t < s.spawned := by
              by_contra hlt
              rw [hb.fresh t (by omega)] at hp
              cases hp
            have := qs.spawned
            omega
          · exact owner (h₁ ▸ List.mem_append_right _ hj)

theorem queueInv_run {attr : Attr} (r : Run attr) (k : Nat) : QueueInv (r.state k) := by
  induction k with
  | zero => rw [r.start]; exact queueInv_initial attr
  | succ k ih =>
    rcases r.step k with h | h
    · exact ih.step (books_run r k) h
    · rw [h]; exact ih

theorem queuedJobs_eq (s : Pool) : queuedJobs s = (order s).length := by
  simp only [queuedJobs, order, List.length_append]
  omega

theorem addJob_of_full {p : Priority} (h : s.attr.maxJobsTotal ≤ queuedJobs s) :
    order (addJob s t p) = order s := by
  unfold addJob
  rw [if_pos h]
  rfl

theorem queuedJobs_stepProc {i : Input} (h : stepProc i t s = some s') :
    queuedJobs s' ≤ queuedJobs s ∨ queuedJobs s' ≤ s.attr.maxJobsTotal := by
  have hl := queuedJobs_eq s
  rw [queuedJobs_eq]
  cases (queueStep_stepProc h).shape with
  | keep e => exact .inl (by rw [e, hl])
  | take x e => exact .inl (by rw [hl, e, List.length_cons]; omega)
  | clear e _ => exact .inl (by rw [e, hl, List.length_nil]; omega)
  | push p A B hp h₁ h₂ _ =>
    have hs : s' = addJob s t p := by simpa [stepProc, hp] using h.symm
    have hlen : (order s').length = (order s).length + 1 := by
      simp only [h₁, h₂, List.length_append, List.length_cons]
      omega
    by_cases hf : s.attr.maxJobsTotal ≤ queuedJobs s
    · rw [hs, addJob_of_full hf] at hlen
      omega
    · right
      omega

theorem queuedJobs_step (h : Step s s') :
    queuedJobs s' ≤ queuedJobs s ∨ queuedJobs s' ≤ s.attr.maxJobsTotal := by
  cases h with
  | call p hp => exact .inl le_rfl
  | tick d => exact .inl le_rfl
  | run t i h => exact queuedJobs_stepProc h

/-- `addJob` keeps the queues within `maxJobsTotal`: over every run the three queues never
hold more jobs than the largest `maxJobsTotal` the pool has had, and none while it was never
positive; `bumpPriority`, the workers and `shutdown` only move or remove jobs. -/
theorem queue_bound {attr : Attr} (r : Run attr) (M : Int) (k : Nat)
    (hM : ∀ i < k, (r.state i).attr.maxJobsTotal ≤ M) : queuedJobs (r.state k) ≤ max M 0 := by
  induction k with
  | zero =>
    rw [r.start]
    exact le_max_right M 0
  | succ k ih =>
    have ih := ih fun i hi ↦ hM i (by omega)
    have hk := hM k (by omega)
    rcases r.step k with h | h
    · rcases queuedJobs_step h with e | e <;> omega
    · rw [h]
      exact ih

def fullRun : Run ⟨0, 0, 100, 10, 1, 500⟩ :=
  Run.ofExec _ [.run 0 ⟨false, true⟩, .call (.callAddJob .low), .run 1 ⟨false, true⟩,
    .call (.callAddJob .low), .run 2 ⟨false, true⟩] rfl

theorem queue_bound_full :
    (∀ i < 5, (fullRun.state i).attr.maxJobsTotal ≤ 1) ∧ queuedJobs (fullRun.state 5) ≤ max 1 0 :=
  ⟨by decide, queue_bound fullRun 1 5 (by decide)⟩

/-- Job `a`, whose maker is past `addJob`, is ahead of the job `tb` submits at its priority: while
both are queued, `a` comes first in the taking order. -/
structure Ahead (a : Job) (tb : Nat) (s : Pool) : Prop where
  done : a.owner < s.spawned ∧ ∀ p, s.threads a.owner ≠ .callAddJob p
  live : tb < s.spawned
  call : ∀ p, s.threads tb = .callAddJob p → p = a.priority
  before : ∀ b ∈ order s, b.owner = tb → a ∈ order s → List.Sublist [a, b] (order s)

theorem sublist_of_cons {a b x : Job} {l : List Job} (h : List.Sublist [a, b] (x :: l))
    (hax : a ≠ x) : List.Sublist [a, b] l := by
  rcases List.sublist_cons_iff.1 h with h | ⟨r, hr, -⟩
  · exact h
  · exact absurd (List.cons.inj hr).1 hax

theorem Ahead.step {a : Job} {tb : Nat} (hq : QueueInv s) (hA : Ahead a tb s) (h : Step s s') :
    Ahead a tb s' := by
  cases h with
  | call p hp =>
    refine ⟨⟨by simp only [Pool.spawn]; have := hA.done.1; omega, ?_⟩, by
      simp only [Pool.spawn]; have := hA.live; omega, ?_, hA.before⟩
    · rw [spawn_threads_of_lt hA.done.1]; exact hA.done.2
    · rw [spawn_threads_of_lt hA.live]; exact hA.call
  | tick d => exact ⟨hA.done, hA.live, hA.call, hA.before⟩
  | run t i h =>
    have qs := queueStep_stepProc h
    have hne {u : Nat} {p : Priority} (hu : s.threads u = .callAddJob p) : a.owner ≠ u :=
      fun e ↦ hA.done.2 p (e ▸ hu)
    refine ⟨⟨by have := hA.done.1; have := qs.spawned; omega,
      fun p hp ↦ hA.done.2 p (qs.calls _ p hp).1⟩, by have := hA.live; have := qs.spawned; omega,
      fun p hp ↦ hA.call p (qs.calls _ p hp).1, ?_⟩
    cases qs.shape with
    | keep e => rw [e]; exact hA.before
    | take x e =>
      intro b hb hbt ha
      have hx : x ∉ order s' := (List.nodup_cons.1 (e ▸ hq.nodup)).1
      have hmem {y : Job} (hy : y ∈ order s') : y ∈ order s := e ▸ List.mem_cons_of_mem _ hy
      exact sublist_of_cons (e ▸ hA.before b (hmem hb) hbt (hmem ha))
        (fun hax ↦ hx (by rwa [← hax]))
    | clear e _ => rw [e]; exact fun _ h ↦ nomatch h
    | push p A B hp h₁ h₂ hA' =>
      rw [h₂]
      intro b hb hbt ha
      have ha' : a ∈ A ++ B := by
        rcases List.mem_append.1 ha with ha | ha
        · exact List.mem_append_left _ ha
        · rcases List.mem_cons.1 ha with rfl | ha
          · exact absurd rfl (hne hp)
          · exact List.mem_append_right _ ha
      by_cases ht : t = tb
      · subst ht
        have hb' : b = ⟨t, p, s.now, s.lastJobId⟩ := by
          rcases List.mem_append.1 hb with hb | hb
          · exact absurd hp ((hq.owners b (h₁ ▸ List.mem_append_left _ hb)).2 p ∘ (hbt ▸ ·))
          · rcases List.mem_cons.1 hb with rfl | hb
            · rfl
            · exact absurd hp ((hq.owners b (h₁ ▸ List.mem_append_right _ hb)).2 p ∘ (hbt ▸ ·))
        have haA : a ∈ A := hA' hq.level a (h₁ ▸ ha') (hA.call p hp).symm
        subst hb'
        exact (List.singleton_sublist.2 haA).append
          (List.singleton_sublist.2 (List.mem_cons_self _ _))
      · have hb' : b ∈ A ++ B := by
          rcases List.mem_append.1 hb with hb | hb
          · exact List.mem_append_left _ hb
          · rcases List.mem_cons.1 hb with rfl | hb
            · exact absurd hbt ht
            · exact List.mem_append_right _ hb
        rw [← h₁] at hb' ha'
        exact (h₁ ▸ hA.before b hb' hbt ha').trans
          ((List.sublist_cons_self _ B).append_left A)

theorem ahead_run {attr : Attr} (r : Run attr) {i : Nat} {a : Job} {tb : Nat}
    (h0 : Ahead a tb (r.state i)) {k : Nat} (hk : i ≤ k) : Ahead a tb (r.state k) := by
  induction k, hk using Nat.le_induction with
  | base => exact h0
  | succ k _ ih =>
    rcases r.step k with h | h
    · exact ih.step (queueInv_run r k) h
    · rw [h]; exact ih

theorem order_of_leave {b : Job} (h : Step s s') (hin : b ∈ order s) (hout : b ∉ order s')
    (hw : s'.shuttingdown = false) : order s = b :: order s' := by
  cases h with
  | call p hp => exact absurd hin hout
  | tick d => exact absurd hin hout
  | run t i h =>
    cases (queueStep_stepProc h).shape with
    | keep e => exact absurd (e ▸ hin) hout
    | take x e =>
      rw [e] at hin ⊢
      rcases List.mem_cons.1 hin with rfl | hin
      · rfl
      · exact absurd hin hout
    | clear _ hs => rw [hs] at hw; cases hw
    | push p A B _ h₁ h₂ _ =>
      rw [h₁] at hin
      rw [h₂] at hout
      rcases List.mem_append.1 hin with hin | hin
      · exact absurd (List.mem_append_left _ hin) hout
      · exact absurd (List.mem_append_right _ (List.mem_cons_of_mem _ hin)) hout

/-- Jobs of one priority are taken in submission order: a job queued before thread `tb` submits at
its priority has left the queues when a worker takes `tb`'s job; bumping keeps the order. -/
theorem equal_priority_fifo {attr : Attr} (r : Run attr) {i k : Nat} (hik : i ≤ k) {a b : Job}
    {tb : Nat} (ha : a ∈ order (r.state i))
    (htb : (r.state i).threads tb = .callAddJob a.priority) (hb : b.owner = tb)
    (hin : b ∈ order (r.state k)) (hout : b ∉ order (r.state (k + 1)))
    (hw : (r.state (k + 1)).shuttingdown = false) : a ∉ order (r.state k) := by
  have hq := queueInv_run r i
  have hlive : tb < (r.state i).spawned := by
    by_contra hlt
    rw [(books_run r i).fresh tb (by omega)] at htb
    cases htb
  have h0 : Ahead a tb (r.state i) :=
    ⟨hq.owners a ha, hlive, fun p hp ↦ by rw [htb] at hp; cases hp; rfl,
      fun b' hb' hbt _ ↦ absurd (hbt ▸ htb) ((hq.owners b' hb').2 _)⟩
  have hab : a ≠ b := fun e ↦ (hq.owners a ha).2 a.priority (by subst e; rw [hb]; exact htb)
  have hA := ahead_run r h0 hik
  intro ha'
  rcases r.step k with h | h
  · have e := order_of_leave h hin hout hw
    have hsub := hA.before b hin hb ha'
    rw [e] at hsub
    exact hout ((sublist_of_cons hsub hab).subset (by simp))
  · exact hout (h ▸ hin)

def twoJobs : List Move :=
  let go : Input := ⟨false, true⟩
  [.run 0 go, .run 1 go, .run 0 go, .run 1 go, .call (.callAddJob .med), .call (.callAddJob .med),
    .run 2 go, .run 3 go, .run 1 go, .run 1 go, .run 1 go]

theorem equal_priority_fifo_two_jobs :
    let r := Run.ofExec ⟨1, 1, 100, 10, 10, 500⟩ twoJobs rfl
    (⟨2, .med, 0, 0⟩ : Job) ∈ order (r.state 7) ∧ (r.state 7).threads 3 = .callAddJob .med ∧
      (⟨3, .med, 0, 1⟩ : Job) ∈ order (r.state 10) ∧ (⟨3, .med, 0, 1⟩ : Job) ∉ order (r.state 11) ∧
      (r.state 11).shuttingdown = false ∧ (⟨2, .med, 0, 0⟩ : Job) ∉ order (r.state 10) :=
  ⟨by decide, by decide, by decide, by decide, by decide,
    equal_priority_fifo _ (i := 7) (k := 10) (by decide) (b := ⟨3, .med, 0, 1⟩) (by decide)
      (by decide) rfl (by decide) (by decide) (by decide)⟩

theorem bumped_has_job {b : Pool} (hb : Bumped s b)
    (hs : ¬ (s.lowJobQ = [] ∧ s.medJobQ = [] ∧ s.highJobQ = [] ∧ s.persistentJob = none ∧
      s.shuttingdown = false)) (hsd : s.shuttingdown = false) (hp : s.persistentJob = none) :
    b.highJobQ ≠ [] ∨ b.medJobQ ≠ [] ∨ b.lowJobQ ≠ [] := by
  have ho := hb.1
  simp only [order] at ho
  by_contra h
  simp only [not_or, not_not] at h
  rw [h.1, h.2.1, h.2.2] at ho
  simp only [List.append_nil, List.nil_eq_append_iff, List.append_eq_nil] at ho
  exact hs ⟨ho.2, ho.1.2, ho.1.1, hp, hsd⟩

/-- The worker's branch "Should never get here" is never taken: leaving its wait loop with no
shutdown and an empty slot, a worker finds a queued job after `bumpPriority`. -/
theorem worker_never_exits_jobless (s : Pool) (t : Nat) (timedOut : Bool) (p : Int) :
    (¬ (s.lowJobQ = [] ∧ s.medJobQ = [] ∧ s.highJobQ = [] ∧ s.persistentJob = none ∧
        s.shuttingdown = false) → s.shuttingdown = false → s.persistentJob = none →
      (bumpPriority s).highJobQ ≠ [] ∨ (bumpPriority s).medJobQ ≠ [] ∨
        (bumpPriority s).lowJobQ ≠ []) ∧
    ((workerLoop s t timedOut p).threads t = .exited →
      s.shuttingdown = true ∨ (s.lowJobQ = [] ∧ s.medJobQ = [] ∧ s.highJobQ = [] ∧
        s.persistentJob = none ∧ ((timedOut = true ∧ s.attr.minThreads < s.totalThreads) ∨
          (s.attr.maxThreads ≠ -1 ∧ s.attr.maxThreads < s.totalThreads)))) := by
  have hb : Bumped s (bumpPriority s) :=
    bumped_bumpLoop (2 * (s.medJobQ.length + s.lowJobQ.length) + 1) s
  refine ⟨bumped_has_job hb, fun h ↦ ?_⟩
  unfold workerLoop at h
  split_ifs at h with hg hx
  · exact .inr ⟨hg.1, hg.2.1, hg.2.2.1, hg.2.2.2.1, hx⟩
  · simp [Pool.setProc] at h
  · unfold takeJob at h
    dsimp only at h
    split_ifs at h with hsd
    · exact .inl (hb.2.2.2.1 ▸ hsd)
    · rw [Bool.not_eq_true, hb.2.2.2.1] at hsd
      split at h
      all_goals try simp [Pool.setProc] at h
      rename_i hp hh hm hl
      exact absurd (bumped_has_job hb hg hsd (hb.2.2.1 ▸ hp)) (by simp [hh, hm, hl])

def shutdownWait : List Move :=
  let go : Input := ⟨false, true⟩
  [.run 0 go, .run 1 go, .run 0 go, .run 1 go, .call (.callShutdown .zero), .run 2 go]

theorem worker_exits_on_shutdown :
    let s := (exec (Pool.initial ⟨1, 1, 100, 10, 10, 500⟩) shutdownWait).getD
      (Pool.initial ⟨1, 1, 100, 10, 10, 500⟩)
    (workerLoop s 1 false (-1)).threads 1 = .exited ∧
      (s.shuttingdown = true ∨ (s.lowJobQ = [] ∧ s.medJobQ = [] ∧ s.highJobQ = [] ∧
        s.persistentJob = none ∧ ((false = true ∧ s.attr.minThreads < s.totalThreads) ∨
          (s.attr.maxThreads ≠ -1 ∧ s.attr.maxThreads < s.totalThreads)))) := by
  intro s
  have h : (workerLoop s 1 false (-1)).threads 1 = .exited := by decide
  exact ⟨h, (worker_never_exits_jobless s 1 false (-1)).2 h⟩

end Npupnp.Pool.Queues
