import Npupnp.Pool.Machine

namespace Npupnp.Pool.Accounting

open Machine

def isCounted : Proc → Bool
  | .top _ _ | .waiting _ | .running _ _ => true
  | _ => false

def isBusy : Proc → Bool
  | .top (some _) _ | .running _ _ => true
  | _ => false

def isPersistent : Proc → Bool
  | .top (some _) p | .running _ p => p == 1
  | _ => false

def isStarting : Proc → Bool
  | .starting => true
  | _ => false

def isCaller : Proc → Bool
  | .starting | .top _ _ | .waiting _ | .running _ _ | .exited => false
  | _ => true

/-- What `addWorker` needs of the thread count it carries across `createWorker`: the
division `jobs / threads` in its loop test is then never by a negative count. -/
def addWorkerOk : Caller → Bool
  | .addWorker _ threads => decide (0 ≤ threads)
  | _ => true

def divisorOk : Proc → Bool
  | .waitPending k | .waitStarted k => addWorkerOk k
  | _ => true

def count (s : Pool) (P : Proc → Bool) : Nat :=
  (List.range s.spawned).countP fun t ↦ P (s.threads t)

theorem countP_range_update_of_le (f : Nat → Proc) (P : Proc → Bool) {n m : Nat} (hm : n ≤ m)
    (q : Proc) :
    ((List.range n).countP fun u ↦ P (Function.update f m q u)) =
      (List.range n).countP fun u ↦ P (f u) :=
  List.countP_congr fun u hu ↦ by
    rw [Function.update_noteq (by simp at hu; omega)]

theorem countP_range_update (f : Nat → Proc) (P : Proc → Bool) {n t : Nat} (ht : t < n)
    (p : Proc) :
    ((List.range n).countP fun u ↦ P (Function.update f t p u)) + (if P (f t) then 1 else 0) =
      ((List.range n).countP fun u ↦ P (f u)) + if P p then 1 else 0 := by
  induction n with
  | zero => omega
  | succ n ih =>
    simp only [List.range_succ, List.countP_append, List.countP_singleton]
    rcases Nat.lt_succ_iff_lt_or_eq.1 ht with ht | rfl
    · rw [Function.update_noteq (by omega)]
      have := ih ht
      omega
    · rw [countP_range_update_of_le f P le_rfl, Function.update_same]
      omega

theorem count_setProc {s : Pool} {t : Nat} (ht : t < s.spawned) (p : Proc) (P : Proc → Bool) :
    count (s.setProc t p) P + (if P (s.threads t) then 1 else 0) =
      count s P + if P p then 1 else 0 :=
  countP_range_update s.threads P ht p

theorem count_congr {s s' : Pool} (h1 : s'.threads = s.threads) (h2 : s'.spawned = s.spawned)
    (P : Proc → Bool) : count s' P = count s P := by
  simp only [count, h1, h2]

theorem count_spawn (s : Pool) (p : Proc) (P : Proc → Bool) :
    count (s.spawn p) P = count s P + if P p then 1 else 0 := by
  simp only [count, Pool.spawn, List.range_succ, List.countP_append, List.countP_singleton,
    Function.update_same, countP_range_update_of_le s.threads P le_rfl]

theorem count_start {s s' : Pool} {t : Nat} (ht : t < s.spawned) {p : Proc}
    (e1 : s'.threads = Function.update (Function.update s.threads s.spawned .starting) t p)
    (e2 : s'.spawned = s.spawned + 1) (P : Proc → Bool) :
    count s' P + (if P (s.threads t) then 1 else 0) =
      count s P + (if P p then 1 else 0) + if P .starting then 1 else 0 := by
  have h := countP_range_update (Function.update s.threads s.spawned .starting) P ht p
  rw [Function.update_noteq (by omega), countP_range_update_of_le _ P le_rfl] at h
  simp only [count, e1, e2, List.range_succ, List.countP_append, List.countP_singleton,
    Function.update_noteq (show s.spawned ≠ t by omega), Function.update_same]
  omega

theorem count_le_of_imp (s : Pool) {P Q : Proc → Bool} (h : ∀ p, P p = true → Q p = true) :
    count s P ≤ count s Q :=
  List.countP_mono_left fun _ _ ↦ h _

/-- The worker accounting: each counter counts the threads in its state, at most one worker start is
pending, and every count `addWorker` carries is at least 0. -/
structure Books (s : Pool) : Prop where
  total : s.totalThreads = count s isCounted
  busy : s.busyThreads = count s isBusy
  persistent : s.persistentThreads = count s isPersistent
  pending : s.pendingWorkerThreadStart = count s isStarting
  pendingLe : s.pendingWorkerThreadStart ≤ 1
  fresh : ∀ t, s.spawned ≤ t → s.threads t = .idle
  first : ∀ t p, s.threads t = .top none p → p ≠ 1
  divisor : ∀ t, divisorOk (s.threads t) = true

theorem Books.persistent_le_busy {s : Pool} (hb : Books s) :
    s.persistentThreads ≤ s.busyThreads := by
  rw [hb.persistent, hb.busy]
  exact_mod_cast count_le_of_imp s fun p ↦ by
    cases p with
    | top job _ => cases job <;> simp [isPersistent, isBusy]
    | _ => simp [isPersistent, isBusy]

theorem Books.busy_le_total {s : Pool} (hb : Books s) : s.busyThreads ≤ s.totalThreads := by
  rw [hb.busy, hb.total]
  exact_mod_cast count_le_of_imp s fun p ↦ by cases p <;> simp [isBusy, isCounted]

def MaxOk (s : Pool) : Prop :=
  s.attr.maxThreads ≠ infiniteThreads →
    s.totalThreads + s.pendingWorkerThreadStart ≤ s.attr.maxThreads

def Raises (a b : Attr) : Prop :=
  b.maxThreads = infiniteThreads ∨ (a.maxThreads ≠ infiniteThreads ∧ a.maxThreads ≤ b.maxThreads)

instance (a b : Attr) : Decidable (Raises a b) := inferInstanceAs (Decidable (_ ∨ _))

theorem books_initial (attr : Attr) : Books (Pool.initial attr) where
  total := rfl
  busy := rfl
  persistent := rfl
  pending := rfl
  pendingLe := show (0 : Int) ≤ 1 by decide
  fresh t ht := by
    simp only [Pool.initial] at ht ⊢
    rw [Function.update_noteq (by omega)]
  first t p h := by
    simp only [Pool.initial, Function.update_apply] at h
    split_ifs at h
  divisor t := by
    simp only [Pool.initial, Function.update_apply]
    split_ifs <;> rfl

def CallerStep (s s' : Pool) (t : Nat) : Prop :=
  s'.totalThreads = s.totalThreads ∧ s'.busyThreads = s.busyThreads ∧
    s'.persistentThreads = s.persistentThreads ∧ ∃ p, isCaller p = true ∧ divisorOk p = true ∧
    ((s'.threads = Function.update s.threads t p ∧ s'.spawned = s.spawned ∧
        s'.pendingWorkerThreadStart = s.pendingWorkerThreadStart) ∨
      (s.pendingWorkerThreadStart = 0 ∧ s'.pendingWorkerThreadStart = 1 ∧
        s'.threads = Function.update (Function.update s.threads s.spawned .starting) t p ∧
        s'.spawned = s.spawned + 1 ∧
        (s'.attr.maxThreads ≠ infiniteThreads → s.totalThreads + 1 ≤ s'.attr.maxThreads)))

def SameBooks (s s₁ : Pool) : Prop :=
  s₁.totalThreads = s.totalThreads ∧ s₁.busyThreads = s.busyThreads ∧
    s₁.persistentThreads = s.persistentThreads ∧
    s₁.pendingWorkerThreadStart = s.pendingWorkerThreadStart ∧ s₁.threads = s.threads ∧
    s₁.spawned = s.spawned

theorem CallerStep.of_same {s s₁ s' : Pool} {t : Nat} (h₁ : SameBooks s s₁)
    (h : CallerStep s₁ s' t) : CallerStep s s' t := by
  obtain ⟨e1, e2, e3, e4, e5, e6⟩ := h₁
  obtain ⟨h1, h2, h3, p, hp, hd, h⟩ := h
  refine ⟨h1.trans e1, h2.trans e2, h3.trans e3, p, hp, hd, ?_⟩
  rw [e4, e5, e6] at h
  rw [← e1]
  exact h

theorem callerStep_setProc (s : Pool) (t : Nat) {p : Proc} (hp : isCaller p = true)
    (hd : divisorOk p = true) : CallerStep s (s.setProc t p) t :=
  ⟨rfl, rfl, rfl, p, hp, hd, .inl ⟨rfl, rfl, rfl⟩⟩

theorem callerStep_addJobDone (s : Pool) (t : Nat) : CallerStep s (addJobDone s t) t :=
  .of_same ⟨rfl, rfl, rfl, rfl, rfl, rfl⟩ (callerStep_setProc _ t rfl rfl)

theorem callerStep_persistentSet (s : Pool) (t : Nat) (priority : Priority) :
    CallerStep s (persistentSet s t priority) t :=
  .of_same ⟨rfl, rfl, rfl, rfl, rfl, rfl⟩ (callerStep_setProc _ t rfl rfl)

theorem callerStep_createFailed (s : Pool) (t : Nat) (k : Caller) :
    CallerStep s (createFailed s t k) t := by
  cases k with
  | addWorker => exact callerStep_addJobDone s t
  | addPersistent => exact callerStep_persistentSet s t _
  | setAttr => exact callerStep_setProc s t rfl rfl
  | start => exact callerStep_setProc s t rfl rfl

theorem callerStep_createWorkerCheck {s : Pool} (h0 : s.pendingWorkerThreadStart = 0)
    (t : Nat) {k : Caller} (hk : addWorkerOk k = true) :
    CallerStep s (createWorkerCheck s t k) t := by
  unfold createWorkerCheck
  split_ifs with h
  · exact callerStep_createFailed s t k
  · refine ⟨rfl, rfl, rfl, .waitStarted k, rfl, hk, .inr ⟨h0, rfl, rfl, rfl, fun hm ↦ ?_⟩⟩
    simp only [not_and] at h
    have := h hm
    show s.totalThreads + 1 ≤ s.attr.maxThreads
    omega

theorem callerStep_createWorker (s : Pool) (t : Nat) {k : Caller} (hk : addWorkerOk k = true) :
    CallerStep s (createWorker s t k) t := by
  unfold createWorker
  split_ifs with h
  · exact callerStep_setProc s t rfl hk
  · exact callerStep_createWorkerCheck (not_not.1 h) t hk

theorem callerStep_createDone (s : Pool) (t : Nat) {k : Caller} (hk : addWorkerOk k = true) :
    CallerStep s (createDone s t k) t := by
  cases k with
  | addWorker jobs threads =>
    simp only [createDone]
    split_ifs
    · refine callerStep_createWorker s t ?_
      simp only [addWorkerOk, decide_eq_true_eq] at hk ⊢
      omega
    · exact callerStep_addJobDone s t
  | addPersistent => exact callerStep_persistentSet s t _
  | setAttr | start =>
    simp only [createDone]
    split_ifs
    · exact callerStep_createWorker s t rfl
    · exact callerStep_setProc s t rfl rfl

theorem callerStep_addJob (s : Pool) (t : Nat) (priority : Priority)
    (hs : 0 ≤ s.totalThreads - s.persistentThreads) : CallerStep s (addJob s t priority) t := by
  have key (s₁ : Pool) (h₁ : SameBooks s s₁) :
      CallerStep s (if wantsWorker s₁ (queuedJobs s₁) (s₁.totalThreads - s₁.persistentThreads)
        then createWorker s₁ t (.addWorker (queuedJobs s₁) (s₁.totalThreads - s₁.persistentThreads))
        else addJobDone s₁ t) t := by
    split_ifs
    · exact .of_same h₁ (callerStep_createWorker _ t (decide_eq_true (h₁.1 ▸ h₁.2.2.1 ▸ hs)))
    · exact .of_same h₁ (callerStep_addJobDone _ t)
  unfold addJob
  split_ifs
  · exact callerStep_setProc s t rfl rfl
  · cases priority <;> exact key _ ⟨rfl, rfl, rfl, rfl, rfl, rfl⟩

theorem callerStep_addPersistent (s : Pool) (t : Nat) (priority : Priority) :
    CallerStep s (addPersistent s t priority) t := by
  unfold addPersistent
  split_ifs
  · exact callerStep_createWorker s t rfl
  all_goals exact callerStep_setProc s t rfl rfl

theorem callerStep_setAttr (s : Pool) (t : Nat) (policyOk : Bool) (attr : Attr) :
    CallerStep s (setAttr s t policyOk attr) t := by
  unfold setAttr
  split_ifs
  · exact .of_same ⟨rfl, rfl, rfl, rfl, rfl, rfl⟩ (callerStep_createWorker _ t rfl)
  · exact .of_same ⟨rfl, rfl, rfl, rfl, rfl, rfl⟩ (callerStep_setProc _ t rfl rfl)
  · exact callerStep_setProc s t rfl rfl

theorem callerStep_startPool (s : Pool) (t : Nat) (policyOk : Bool) :
    CallerStep s (startPool s t policyOk) t := by
  unfold startPool
  split_ifs
  · exact callerStep_createWorker s t rfl
  · exact callerStep_setProc s t rfl rfl
  · exact callerStep_setProc s t rfl rfl

theorem callerStep_shutdownStart (s : Pool) (t : Nat) (rc : Ret) :
    CallerStep s (shutdownStart s t rc) t := by
  unfold shutdownStart
  dsimp only
  split_ifs <;> exact callerStep_setProc _ t rfl rfl

theorem callerStep_stepProc {i : Input} {t : Nat} {s s' : Pool}
    (hc : isCaller (s.threads t) = true) (hd : divisorOk (s.threads t) = true)
    (hs : 0 ≤ s.totalThreads - s.persistentThreads) (h : stepProc i t s = some s') :
    CallerStep s s' t := by
  unfold stepProc at h
  cases hp : s.threads t <;> rw [hp] at h hc hd <;>
    simp only [isCaller, Bool.false_eq_true, Option.some.injEq, reduceCtorEq] at hc h
  case startPool => subst h; exact callerStep_startPool s t _
  case callAddJob priority => subst h; exact callerStep_addJob s t priority hs
  case callAddPersistent priority => subst h; exact callerStep_addPersistent s t priority
  case callSetAttr attr => subst h; exact callerStep_setAttr s t _ attr
  case callShutdown rc => subst h; exact callerStep_shutdownStart s t rc
  case waitPending k =>
    split_ifs at h with h0
    cases h
    exact callerStep_createWorkerCheck h0 t hd
  case waitStarted k =>
    split_ifs at h
    cases h
    exact callerStep_createDone s t hd
  case waitPersistent =>
    split_ifs at h
    cases h
    exact .of_same ⟨rfl, rfl, rfl, rfl, rfl, rfl⟩ (callerStep_setProc _ t rfl rfl)
  case waitShutdown rc =>
    split_ifs at h
    cases h
    exact callerStep_setProc s t rfl rfl

theorem isCaller_books {q : Proc} (hq : isCaller q = true) :
    isCounted q = false ∧ isBusy q = false ∧ isPersistent q = false ∧ isStarting q = false := by
  cases q <;> simp_all [isCaller, isCounted, isBusy, isPersistent, isStarting]

theorem Books.callerStep {s s' : Pool} {t : Nat} (hb : Books s) (ht : t < s.spawned)
    (hc : isCaller (s.threads t) = true) (h : CallerStep s s' t) : Books s' := by
  obtain ⟨h1, h2, h3, p, hp, hd, ⟨e1, e2, e3⟩ | ⟨e0, e3, e1, e2, -⟩⟩ := h
  all_goals
    obtain ⟨a1, a2, a3, a4⟩ := isCaller_books hc
    obtain ⟨b1, b2, b3, b4⟩ := isCaller_books hp
  · have hcount (P : Proc → Bool) (h₁ : P (s.threads t) = false) (h₂ : P p = false) :
        count s' P = count s P := by
      have := count_setProc ht p P
      rw [count_congr (s := s.setProc t p) e1 e2]
      simpa [h₁, h₂] using this
    refine ⟨?_, ?_, ?_, ?_, ?_, fun u hu ↦ ?_, fun u q hu ↦ ?_, fun u ↦ ?_⟩
    · rw [h1, hb.total, hcount _ a1 b1]
    · rw [h2, hb.busy, hcount _ a2 b2]
    · rw [h3, hb.persistent, hcount _ a3 b3]
    · rw [e3, hb.pending, hcount _ a4 b4]
    · rw [e3]; exact hb.pendingLe
    · rw [e1, Function.update_noteq (by omega)]
      exact hb.fresh u (by omega)
    · rw [e1, Function.update_apply] at hu
      split_ifs at hu
      · subst hu; cases hp
      · exact hb.first u q hu
    · rw [e1, Function.update_apply]
      split_ifs
      exacts [hd, hb.divisor u]
  · have hcount (P : Proc → Bool) (h₁ : P (s.threads t) = false) (h₂ : P p = false) :
        count s' P = count s P + if P .starting then 1 else 0 := by
      have := count_start ht e1 e2 P
      simp only [h₁, h₂] at this
      omega
    refine ⟨?_, ?_, ?_, ?_, ?_, fun u hu ↦ ?_, fun u q hu ↦ ?_, fun u ↦ ?_⟩
    · rw [h1, hb.total, hcount _ a1 b1]; rfl
    · rw [h2, hb.busy, hcount _ a2 b2]; rfl
    · rw [h3, hb.persistent, hcount _ a3 b3]; rfl
    · rw [e3, hcount _ a4 b4]
      have := hb.pending
      simp only [isStarting, if_true]
      omega
    · omega
    · rw [e1, Function.update_noteq (by omega), Function.update_noteq (by omega)]
      exact hb.fresh u (by omega)
    · rw [e1, Function.update_apply, Function.update_apply] at hu
      split_ifs at hu
      · subst hu; cases hp
      · exact hb.first u q hu
    · rw [e1, Function.update_apply, Function.update_apply]
      split_ifs
      exacts [hd, rfl, hb.divisor u]

theorem MaxOk.callerStep {s s' : Pool} {t : Nat} (hm : MaxOk s) (hr : Raises s.attr s'.attr)
    (h : CallerStep s s' t) : MaxOk s' := by
  intro hinf
  obtain ⟨h1, -, -, p, -, -, ⟨-, -, e3⟩ | ⟨-, e3, -, -, hmax⟩⟩ := h
  · rcases hr with hr | ⟨hfin, hle⟩
    · exact absurd hr hinf
    · have := hm hfin
      omega
  · have := hmax hinf
    omega

theorem SameBooks.trans {s s₁ s₂ : Pool} (h₁ : SameBooks s s₁) (h₂ : SameBooks s₁ s₂) :
    SameBooks s s₂ := by
  obtain ⟨a1, a2, a3, a4, a5, a6⟩ := h₁
  obtain ⟨b1, b2, b3, b4, b5, b6⟩ := h₂
  exact ⟨b1.trans a1, b2.trans a2, b3.trans a3, b4.trans a4, b5.trans a5, b6.trans a6⟩

theorem bumpLoop_same (n : Nat) (s : Pool) :
    SameBooks s (bumpLoop n s) ∧ (bumpLoop n s).attr = s.attr ∧
      (bumpLoop n s).shuttingdown = s.shuttingdown := by
  induction n generalizing s with
  | zero => exact ⟨⟨rfl, rfl, rfl, rfl, rfl, rfl⟩, rfl, rfl⟩
  | succ n ih =>
    have hlow : ∀ s', bumpLow s = some s' →
        SameBooks s s' ∧ s'.attr = s.attr ∧ s'.shuttingdown = s.shuttingdown := by
      intro s' h
      unfold bumpLow at h
      split at h <;> (try split_ifs at h) <;> cases h
      exact ⟨⟨rfl, rfl, rfl, rfl, rfl, rfl⟩, rfl, rfl⟩
    have honce : ∀ s', bumpOnce s = some s' →
        SameBooks s s' ∧ s'.attr = s.attr ∧ s'.shuttingdown = s.shuttingdown := by
      intro s' h
      unfold bumpOnce at h
      split at h
      · split_ifs at h
        · cases h; exact ⟨⟨rfl, rfl, rfl, rfl, rfl, rfl⟩, rfl, rfl⟩
        · exact hlow s' h
      · exact hlow s' h
    unfold bumpLoop
    split
    · rename_i s' h
      obtain ⟨h1, h2, h3⟩ := honce s' h
      obtain ⟨i1, i2, i3⟩ := ih s'
      exact ⟨h1.trans i1, i2.trans h2, i3.trans h3⟩
    · exact ⟨⟨rfl, rfl, rfl, rfl, rfl, rfl⟩, rfl, rfl⟩

def LoopStep (s r : Pool) (t : Nat) (p : Int) : Prop :=
  r.spawned = s.spawned ∧ r.pendingWorkerThreadStart = s.pendingWorkerThreadStart ∧
    r.attr = s.attr ∧
    ((r.totalThreads = s.totalThreads - 1 ∧ r.busyThreads = s.busyThreads ∧
        r.persistentThreads = s.persistentThreads ∧
        r.threads = Function.update s.threads t .exited) ∨
      (r.totalThreads = s.totalThreads ∧ r.busyThreads = s.busyThreads ∧
        r.persistentThreads = s.persistentThreads ∧
        r.threads = Function.update s.threads t (.waiting p)) ∨
      ∃ j q, (q = 0 ∨ q = 1) ∧ r.totalThreads = s.totalThreads ∧
        r.busyThreads = s.busyThreads + 1 ∧
        r.persistentThreads = s.persistentThreads + (if q = 1 then 1 else 0) ∧
        r.threads = Function.update s.threads t (.running j q))

theorem LoopStep.of_same {s s₁ r : Pool} {t : Nat} {p : Int} (h₁ : SameBooks s s₁)
    (ha : s₁.attr = s.attr) (h : LoopStep s₁ r t p) : LoopStep s r t p := by
  obtain ⟨e1, e2, e3, e4, e5, e6⟩ := h₁
  obtain ⟨h1, h2, h3, h⟩ := h
  refine ⟨h1.trans e6, h2.trans e4, h3.trans ha, ?_⟩
  rw [e1, e2, e3, e5] at h
  exact h

theorem loopStep_exitWorker (s : Pool) (t : Nat) (p : Int) :
    LoopStep s (exitWorker s t) t p :=
  ⟨rfl, rfl, rfl, .inl ⟨rfl, rfl, rfl, rfl⟩⟩

theorem loopStep_takeJob (s : Pool) (t : Nat) (p : Int) : LoopStep s (takeJob s t) t p := by
  obtain ⟨hs, ha, -⟩ := bumpLoop_same (2 * (s.medJobQ.length + s.lowJobQ.length) + 1) s
  refine .of_same hs ha ?_
  unfold takeJob
  dsimp only
  split_ifs
  · exact loopStep_exitWorker _ t p
  · split
    · exact ⟨rfl, rfl, rfl, .inr (.inr ⟨_, 1, .inr rfl, rfl, rfl, by simp [bumpPriority], rfl⟩)⟩
    all_goals first
      | exact ⟨rfl, rfl, rfl, .inr (.inr ⟨_, 0, .inl rfl, rfl, rfl, by simp [bumpPriority], rfl⟩)⟩
      | exact loopStep_exitWorker _ t p

theorem loopStep_workerLoop (s : Pool) (t : Nat) (timedOut : Bool) (p : Int) :
    LoopStep s (workerLoop s t timedOut p) t p := by
  unfold workerLoop
  split_ifs
  · exact loopStep_exitWorker s t p
  · exact ⟨rfl, rfl, rfl, .inr (.inl ⟨rfl, rfl, rfl, rfl⟩)⟩
  · exact loopStep_takeJob s t p

theorem Books.update {b r : Pool} {t : Nat} {p : Proc} (hb : Books b) (ht : t < b.spawned)
    (e1 : r.threads = Function.update b.threads t p) (e2 : r.spawned = b.spawned)
    (htotal : r.totalThreads + (if isCounted (b.threads t) then 1 else 0) =
      b.totalThreads + if isCounted p then 1 else 0)
    (hbusy : r.busyThreads + (if isBusy (b.threads t) then 1 else 0) =
      b.busyThreads + if isBusy p then 1 else 0)
    (hpers : r.persistentThreads + (if isPersistent (b.threads t) then 1 else 0) =
      b.persistentThreads + if isPersistent p then 1 else 0)
    (hpend : r.pendingWorkerThreadStart + (if isStarting (b.threads t) then 1 else 0) =
      b.pendingWorkerThreadStart + if isStarting p then 1 else 0)
    (hle : r.pendingWorkerThreadStart ≤ 1) (hfirst : ∀ q, p = .top none q → q ≠ 1)
    (hdiv : divisorOk p = true) : Books r := by
  have hcount (P : Proc → Bool) :
      (count r P : Int) + (if P (b.threads t) then 1 else 0) =
        count b P + if P p then 1 else 0 := by
    have := count_setProc ht p P
    rw [← count_congr (s := b.setProc t p) (by rw [e1]; rfl) e2] at this
    split_ifs at this ⊢ <;> omega
  refine ⟨?_, ?_, ?_, ?_, hle, fun u hu ↦ ?_, fun u q hu ↦ ?_, fun u ↦ ?_⟩
  · have := hcount isCounted; have := hb.total; omega
  · have := hcount isBusy; have := hb.busy; omega
  · have := hcount isPersistent; have := hb.persistent; omega
  · have := hcount isStarting; have := hb.pending; omega
  · rw [e1, Function.update_noteq (by omega)]
    exact hb.fresh u (by omega)
  · rw [e1, Function.update_apply] at hu
    split_ifs at hu
    exacts [hfirst q hu, hb.first u q hu]
  · rw [e1, Function.update_apply]
    split_ifs
    exacts [hdiv, hb.divisor u]

theorem setProc_self {s : Pool} {t : Nat} {p : Proc} (h : s.threads t = p) : s.setProc t p = s := by
  cases s
  simp only [Pool.setProc, ← h, Function.update_eq_self]

theorem Books.loopStep {s r : Pool} {t : Nat} {p : Int} (hb : Books (s.setProc t (.waiting p)))
    (ht : t < s.spawned) (h : LoopStep s r t p) :
    Books r ∧ (MaxOk (s.setProc t (.waiting p)) → MaxOk r) := by
  obtain ⟨e1, e2, e3, h⟩ := h
  have hpend := hb.pendingLe
  simp only [setProc_pendingWorkerThreadStart] at hpend
  have hmax (hr : r.totalThreads ≤ s.totalThreads) (hm : MaxOk (s.setProc t (.waiting p))) :
      MaxOk r := fun hinf ↦ by
    have := hm (by simpa [e3] using hinf)
    simp only [setProc_totalThreads, setProc_pendingWorkerThreadStart, setProc_attr] at this
    rw [e2, e3]
    omega
  rcases h with ⟨h1, h2, h3, h4⟩ | ⟨h1, h2, h3, h4⟩ | ⟨j, q, hq, h1, h2, h3, h4⟩
  all_goals refine ⟨hb.update ht (p := r.threads t)
    (by rw [h4, setProc_threads, Function.update_idem, Function.update_same]) (by simpa using e1)
    ?_ ?_ ?_ ?_ (by omega) ?_ ?_, hmax (by omega)⟩
  all_goals simp only [h4, setProc_threads, Function.update_same, setProc_totalThreads,
    setProc_busyThreads, setProc_persistentThreads, setProc_pendingWorkerThreadStart, isCounted,
    isBusy, isPersistent, isStarting, divisorOk, if_true, if_false, Bool.false_eq_true,
    reduceCtorEq, false_implies, implies_true]
  all_goals try omega
  all_goals rcases hq with rfl | rfl <;> simp [h3]

theorem Books.workerTop {s : Pool} {t : Nat} {job : Option Job} {p : Int} (hb : Books s)
    (ht : t < s.spawned) (hp : s.threads t = .top job p) :
    Books (workerTop s t job p) ∧ (MaxOk s → MaxOk (workerTop s t job p)) := by
  have key (s₂ : Pool) (e1 : s₂.threads = s.threads) (e2 : s₂.spawned = s.spawned)
      (e3 : s₂.totalThreads = s.totalThreads)
      (e4 : s₂.pendingWorkerThreadStart = s.pendingWorkerThreadStart) (e5 : s₂.attr = s.attr)
      (e6 : s₂.busyThreads + (if isBusy (.top job p) then 1 else 0) = s.busyThreads)
      (e7 : s₂.persistentThreads + (if isPersistent (.top job p) then 1 else 0) =
        s.persistentThreads) :
      Books (workerLoop s₂ t false p) ∧ (MaxOk s → MaxOk (workerLoop s₂ t false p)) := by
    have hb₂ : Books (s₂.setProc t (.waiting p)) :=
      hb.update ht (p := .waiting p) (by simp [e1]) (by simp [e2])
        (by simp [hp, e3, isCounted]) (by simpa [hp, isBusy] using e6)
        (by simpa [hp, isPersistent] using e7) (by simp [hp, e4, isStarting])
        (by simpa [e4] using hb.pendingLe) (by simp) rfl
    have hm₂ (hm : MaxOk s) : MaxOk (s₂.setProc t (.waiting p)) := by
      simpa [MaxOk, e3, e4, e5] using hm
    obtain ⟨h1, h2⟩ := hb₂.loopStep (e2 ▸ ht) (loopStep_workerLoop s₂ t false p)
    exact ⟨h1, fun hm ↦ h2 (hm₂ hm)⟩
  unfold Machine.workerTop
  cases job with
  | none =>
    simp only [if_neg (hb.first t p hp)]
    exact key s rfl rfl rfl rfl rfl (by simp [isBusy]) (by simp [isPersistent])
  | some j =>
    dsimp only
    split_ifs with hp1
    all_goals exact key _ rfl rfl rfl rfl rfl (by simp [isBusy]) (by simp [isPersistent, hp1])

theorem Books.starting {s : Pool} {t : Nat} (hb : Books s) (ht : t < s.spawned)
    (hp : s.threads t = .starting) :
    let s' := { s with totalThreads := s.totalThreads + 1, pendingWorkerThreadStart := 0 }.setProc
      t (.top none (-1))
    Books s' ∧ (MaxOk s → MaxOk s') := by
  have hone : s.pendingWorkerThreadStart = 1 := by
    have := count_setProc ht .idle isStarting
    have := hb.pending
    have := hb.pendingLe
    simp only [hp, isStarting, if_true, if_false, Bool.false_eq_true] at *
    omega
  refine ⟨hb.update ht (p := .top none (-1)) rfl rfl ?_ ?_ ?_ ?_ (show (0 : Int) ≤ 1 by decide)
    (by simp) rfl, fun hm hinf ↦ ?_⟩
  all_goals simp_all [isCounted, isBusy, isPersistent, isStarting, MaxOk]

theorem Books.running {s : Pool} {t : Nat} {j : Job} {q : Int} (hb : Books s) (ht : t < s.spawned)
    (hp : s.threads t = .running j q) :
    Books ({ s with ran := s.ran ++ [j] }.setProc t (.top (some j) q)) :=
  hb.update ht (p := .top (some j) q) rfl rfl (by simp [hp, isCounted])
    (by simp [hp, isBusy]) (by simp [hp, isPersistent]) (by simp [hp, isStarting]) hb.pendingLe
    (by simp) rfl

theorem Books.threads_nonneg {s : Pool} (hb : Books s) : 0 ≤ s.totalThreads - s.persistentThreads := by
  have := hb.persistent_le_busy
  have := hb.busy_le_total
  omega

theorem Books.workerStep {i : Input} {t : Nat} {s s' : Pool} (hb : Books s)
    (ht : t < s.spawned) (hc : isCaller (s.threads t) = false) (h : stepProc i t s = some s') :
    Books s' ∧ (MaxOk s → MaxOk s') := by
  unfold Machine.stepProc at h
  cases hp : s.threads t <;> rw [hp] at h hc <;>
    simp only [isCaller, Option.some.injEq, reduceCtorEq, Bool.true_eq_false] at hc h <;> subst h
  case starting => exact hb.starting ht hp
  case top job p => exact hb.workerTop ht hp
  case waiting p =>
    rw [← setProc_self hp] at hb
    obtain ⟨h1, h2⟩ := hb.loopStep ht (loopStep_workerLoop s t i.timedOut p)
    exact ⟨h1, fun hm ↦ h2 (by rwa [setProc_self hp])⟩
  case running j q => exact ⟨hb.running ht hp, id⟩

theorem Books.stepProc {i : Input} {t : Nat} {s s' : Pool} (hb : Books s)
    (h : stepProc i t s = some s') :
    Books s' ∧ (MaxOk s → Raises s.attr s'.attr → MaxOk s') := by
  have ht : t < s.spawned := by
    by_contra hge
    rw [Machine.stepProc, hb.fresh t (by omega)] at h
    cases h
  by_cases hc : isCaller (s.threads t) = true
  · have hs := callerStep_stepProc hc (hb.divisor t) hb.threads_nonneg h
    exact ⟨hb.callerStep ht hc hs, fun hm hr ↦ hm.callerStep hr hs⟩
  · obtain ⟨h1, h2⟩ := hb.workerStep ht (by simpa using hc) h
    exact ⟨h1, fun hm _ ↦ h2 hm⟩

theorem isCall_caller {p : Proc} (hp : isCall p = true) :
    isCaller p = true ∧ divisorOk p = true := by
  cases p <;> simp_all [isCall, isCaller, divisorOk]

theorem Books.spawn {s : Pool} {p : Proc} (hb : Books s) (hp : isCall p = true) :
    Books (s.spawn p) := by
  obtain ⟨hc, hd⟩ := isCall_caller hp
  obtain ⟨a1, a2, a3, a4⟩ := isCaller_books hc
  refine ⟨?_, ?_, ?_, ?_, hb.pendingLe, fun u hu ↦ ?_, fun u q hu ↦ ?_, fun u ↦ ?_⟩
  · simpa [count_spawn, a1] using hb.total
  · simpa [count_spawn, a2] using hb.busy
  · simpa [count_spawn, a3] using hb.persistent
  · simpa [count_spawn, a4] using hb.pending
  · simp only [Pool.spawn] at hu ⊢
    rw [Function.update_noteq (by omega)]
    exact hb.fresh u (by omega)
  · simp only [Pool.spawn, Function.update_apply] at hu
    split_ifs at hu
    · subst hu; cases hc
    · exact hb.first u q hu
  · simp only [Pool.spawn, Function.update_apply]
    split_ifs
    exacts [hd, hb.divisor u]

theorem Books.step {s s' : Pool} (hb : Books s) (h : Step s s') :
    Books s' ∧ (MaxOk s → Raises s.attr s'.attr → MaxOk s') := by
  cases h with
  | call p hp => exact ⟨hb.spawn hp, fun hm _ ↦ hm⟩
  | tick d =>
    exact ⟨⟨hb.total, hb.busy, hb.persistent, hb.pending, hb.pendingLe, hb.fresh, hb.first,
      hb.divisor⟩, fun hm _ ↦ hm⟩
  | run t i h => exact hb.stepProc h

theorem books_run {attr : Attr} (r : Run attr) (k : Nat) : Books (r.state k) := by
  induction k with
  | zero => rw [r.start]; exact books_initial attr
  | succ k ih =>
    rcases r.step k with h | h
    · exact (ih.step h).1
    · rw [h]; exact ih

theorem maxOk_run {attr : Attr} (r : Run attr)
    (hmax : attr.maxThreads = infiniteThreads ∨ 0 ≤ attr.maxThreads) (k : Nat)
    (hr : ∀ j < k, Raises (r.state j).attr (r.state (j + 1)).attr) : MaxOk (r.state k) := by
  induction k with
  | zero =>
    intro hinf
    rw [r.start] at hinf ⊢
    exact hmax.resolve_left hinf
  | succ k ih =>
    have hm := ih fun j hj ↦ hr j (by omega)
    rcases r.step k with h | h
    · exact ((books_run r k).step h).2 hm (hr k (by omega))
    · rw [h]; exact hm

/-- In every state of a run each worker counter counts the threads in its state, and every count
`addWorker` carries is at least 0; under a `maxThreads` never lowered, workers stay within it. -/
theorem pool_accounting_invariant {attr : Attr} (r : Run attr) (k : Nat) :
    let s := r.state k
    s.totalThreads = count s isCounted ∧ s.busyThreads = count s isBusy ∧
      s.persistentThreads = count s isPersistent ∧
      0 ≤ s.persistentThreads ∧ s.persistentThreads ≤ s.busyThreads ∧
      s.busyThreads ≤ s.totalThreads ∧
      (∀ t jobs n, (s.threads t = .waitPending (.addWorker jobs n) ∨
        s.threads t = .waitStarted (.addWorker jobs n)) → 0 ≤ n) ∧
      ((attr.maxThreads = infiniteThreads ∨ 0 ≤ attr.maxThreads) →
        (∀ j < k, Raises (r.state j).attr (r.state (j + 1)).attr) →
        s.attr.maxThreads ≠ infiniteThreads →
        s.totalThreads + s.pendingWorkerThreadStart ≤ s.attr.maxThreads) := by
  intro s
  have hb : Books s := books_run r k
  refine ⟨hb.total, hb.busy, hb.persistent, by rw [hb.persistent]; omega, hb.persistent_le_busy,
    hb.busy_le_total, fun t jobs n h ↦ ?_, fun hmax hr ↦ maxOk_run r hmax k hr⟩
  have := hb.divisor t
  rcases h with h | h <;> simpa [h, divisorOk, addWorkerOk] using this

theorem pool_accounting_invariant_startup :
    let r := Run.ofExec ⟨1, 2, 100, 10, 10, 500⟩
      [.run 0 ⟨false, true⟩, .run 1 ⟨false, true⟩, .run 0 ⟨false, true⟩] rfl
    (∀ j < 3, Raises (r.state j).attr (r.state (j + 1)).attr) ∧ (r.state 3).totalThreads = 1 ∧
      (r.state 3).totalThreads + (r.state 3).pendingWorkerThreadStart ≤
        (r.state 3).attr.maxThreads :=
  have hr : ∀ j < 3, Raises _ _ := by decide
  ⟨hr, rfl, (pool_accounting_invariant _ 3).2.2.2.2.2.2.2 (.inr (by decide)) hr (by decide)⟩

theorem accounting_bound_negative_max :
    let s := (Run.ofExec ⟨0, -2, 100, 10, 10, 500⟩ [] rfl).state 0
    s.attr.maxThreads ≠ infiniteThreads ∧
      s.attr.maxThreads < s.totalThreads + s.pendingWorkerThreadStart := by
  decide

end Npupnp.Pool.Accounting
