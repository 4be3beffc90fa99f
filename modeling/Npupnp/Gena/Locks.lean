import Npupnp.Gena.Machine

namespace Npupnp.Gena.Locks

open Basic Notify Machine

/-- The points where a thread holds the handle lock between steps: only the bad-handle
branch of `genaSubscribe` keeps its `HandleReadLock()` while it waits. -/
def holdsRead : Proc → Bool
  | .subscribeBadHandle .. => true
  | _ => false

def holdsSubscribe : Proc → Bool
  | .subscribeRequest .. | .subscribeRecord .. | .notifyRetryLookup .. => true
  | _ => false

def waitsSubscribe : Proc → Bool
  | .subscribeBadHandle .. | .subscribeLock .. | .notifyRetry .. => true
  | _ => false

def waitsHandle : Proc → Bool
  | .subscribeRecord .. | .renewEntry .. | .renewRecord .. | .unsubscribeEntry ..
  | .unsubscribeRemove .. | .unregisterLoop .. | .notifyLookup .. | .notifyRetryLookup .. => true
  | _ => false

/-- Lock ownership as the program points say it is. -/
structure LockInv (s : Gena) : Prop where
  readers : ∀ t, t ∈ s.readers ↔ holdsRead (s.threads t)
  nodup : s.readers.Nodup
  owner : ∀ t, s.subscribeOwner = some t ↔ holdsSubscribe (s.threads t)
  fresh : ∀ t, s.spawned ≤ t → s.threads t = .idle

theorem lockInv_initial (client : Option Nat) : LockInv (Gena.initial client) where
  readers _ := by simp [Gena.initial, holdsRead]
  nodup := List.nodup_nil
  owner _ := by simp [Gena.initial, holdsSubscribe]
  fresh _ _ := rfl

theorem holdsRead_renewDone (job : Option RenewEvent) (rc : Code) (timeOut : Int) :
    holdsRead (renewDone job rc timeOut) = false := by
  unfold renewDone; split <;> (try split) <;> rfl

theorem holdsSubscribe_renewDone (job : Option RenewEvent) (rc : Code) (timeOut : Int) :
    holdsSubscribe (renewDone job rc timeOut) = false := by
  unfold renewDone; split <;> (try split) <;> rfl

def LockDelta (t : Nat) (s s' : Gena) : Prop :=
  ((s'.readers = s.readers ∧ holdsRead (s'.threads t) = holdsRead (s.threads t)) ∨
    (s'.readers = t :: s.readers ∧ holdsRead (s'.threads t) ∧ holdsRead (s.threads t) = false) ∨
    (s'.readers = s.readers.erase t ∧ holdsRead (s'.threads t) = false ∧
      holdsRead (s.threads t))) ∧
  ((s'.subscribeOwner = s.subscribeOwner ∧
      holdsSubscribe (s'.threads t) = holdsSubscribe (s.threads t)) ∨
    (s.subscribeOwner = none ∧ s'.subscribeOwner = some t ∧ holdsSubscribe (s'.threads t) ∧
      holdsSubscribe (s.threads t) = false) ∨
    (s'.subscribeOwner = none ∧ holdsSubscribe (s'.threads t) = false ∧
      holdsSubscribe (s.threads t)))

theorem recordSubscription_lockDelta {cfg : Config} {i : Input} {t h : Nat} {url : String}
    {timeOut : Int} {r : SubscribeResult} {s : Gena} (ho : holdsSubscribe (s.threads t))
    (hr : holdsRead (s.threads t) = false) :
    LockDelta t s (recordSubscription cfg i t h url timeOut r s) := by
  unfold recordSubscription
  split
  · (simp only [LockDelta, hr, ho]; simp [holdsRead, holdsSubscribe])
  · split <;> (simp only [LockDelta, hr, ho]; simp [holdsRead, holdsSubscribe])

theorem renewFind_lockDelta {t h : Nat} {sid : String} {timeOut : Int}
    {job : Option RenewEvent} {s : Gena} (ho : holdsSubscribe (s.threads t) = false)
    (hr : holdsRead (s.threads t) = false) : LockDelta t s (renewFind t h sid timeOut job s) := by
  unfold renewFind
  split
  · split
    · (simp only [LockDelta, hr, ho]; simp [holdsRead_renewDone, holdsSubscribe_renewDone])
    · (simp only [LockDelta, hr, ho]; simp [holdsRead, holdsSubscribe])
  · (simp only [LockDelta, hr, ho]; simp [holdsRead_renewDone, holdsSubscribe_renewDone])

theorem renewRecord_lockDelta {cfg : Config} {i : Input} {t h : Nat} {sid : String}
    {timeOut : Int} {copy : ClientSubscription} {r : SubscribeResult} {job : Option RenewEvent}
    {s : Gena} (ho : holdsSubscribe (s.threads t) = false)
    (hr : holdsRead (s.threads t) = false) :
    LockDelta t s (renewRecord cfg i t h sid timeOut copy r job s) := by
  unfold renewRecord
  dsimp only
  split
  · split
    · (simp only [LockDelta, hr, ho]; simp [holdsRead_renewDone, holdsSubscribe_renewDone])
    · split <;>
        (simp only [LockDelta, hr, ho]; simp [holdsRead_renewDone, holdsSubscribe_renewDone])
  · (simp only [LockDelta, hr, ho]; simp [holdsRead_renewDone, holdsSubscribe_renewDone])

theorem lockDelta_setProc {t : Nat} {s s₁ : Gena} {p : Proc} (hr : s₁.readers = s.readers)
    (ho : s₁.subscribeOwner = s.subscribeOwner) (hR : holdsRead p = holdsRead (s.threads t))
    (hO : holdsSubscribe p = holdsSubscribe (s.threads t)) : LockDelta t s (s₁.setProc t p) :=
  ⟨.inl ⟨hr, by simpa using hR⟩, .inl ⟨ho, by simpa using hO⟩⟩

theorem stepProc_lockDelta {cfg : Config} {i : Input} {t : Nat} {s s' : Gena}
    (h : stepProc cfg i t s = some s') : LockDelta t s s' := by
  unfold stepProc at h
  cases hp : s.threads t <;> simp only [hp, reduceCtorEq] at h
  case subscribeEntry =>
    split_ifs at h <;> cases h
    · exact lockDelta_setProc rfl rfl (by rw [hp]; rfl) (by rw [hp]; rfl)
    · simp [LockDelta, hp, holdsRead, holdsSubscribe]
  case subscribeBadHandle | subscribeLock | notifyRetry =>
    split_ifs at h with ho
    cases h
    simp [LockDelta, hp, ho, holdsRead, holdsSubscribe]
  case notifyRetryLookup =>
    split_ifs at h
    split at h <;> (try split at h) <;> cases h <;> simp [LockDelta, hp, holdsRead, holdsSubscribe]
  case subscribeRecord =>
    split_ifs at h
    cases h
    exact recordSubscription_lockDelta (by rw [hp]; rfl) (by rw [hp]; rfl)
  case renewEntry =>
    split_ifs at h
    cases h
    exact renewFind_lockDelta (by rw [hp]; rfl) (by rw [hp]; rfl)
  case renewRecord =>
    split_ifs at h
    cases h
    exact renewRecord_lockDelta (by rw [hp]; rfl) (by rw [hp]; rfl)
  all_goals
    repeat' split at h
    all_goals cases h
    all_goals exact lockDelta_setProc (by simp) (by simp) (by rw [hp]; rfl) (by rw [hp]; rfl)

theorem lockInv_spawn {s : Gena} {p : Proc} (hi : LockInv s) (hr : holdsRead p = false)
    (ho : holdsSubscribe p = false) : LockInv (s.spawn p) := by
  have hidle := hi.fresh s.spawned le_rfl
  refine ⟨fun u ↦ ?_, hi.nodup, fun u ↦ ?_, fun u hu ↦ ?_⟩
  · by_cases hu : u = s.spawned
    · subst hu
      simpa [Gena.spawn, hr, hidle, show holdsRead .idle = false from rfl] using
        hi.readers s.spawned
    · simpa [Gena.spawn, hu] using hi.readers u
  · by_cases hu : u = s.spawned
    · subst hu
      simpa [Gena.spawn, ho, hidle, show holdsSubscribe .idle = false from rfl] using
        hi.owner s.spawned
    · simpa [Gena.spawn, hu] using hi.owner u
  · simp only [Gena.spawn, setProc_threads] at hu ⊢
    rw [Function.update_noteq (by omega)]
    exact hi.fresh u (by omega)

theorem lockInv_run {cfg : Config} {i : Input} {t : Nat} {s s' : Gena}
    (h : stepProc cfg i t s = some s') (hi : LockInv s) : LockInv s' := by
  obtain ⟨hth, hsp, -⟩ := stepProc_framed h
  have hf : Framed t s s' := stepProc_framed h
  have ht : t < s.spawned := by
    by_contra hc
    exact stepProc_active h (hi.fresh t (by omega))
  obtain ⟨hR, hO⟩ := stepProc_lockDelta h
  refine ⟨fun u ↦ ?_, ?_, fun u ↦ ?_, fun u hu ↦ ?_⟩
  · by_cases hu : u = t
    · subst hu
      have hold := hi.readers u
      rcases hR with ⟨hr, he⟩ | ⟨hr, hn, -⟩ | ⟨hr, hn, -⟩
      · rw [hr, he]; exact hold
      · simp [hr, hn]
      · simp only [hr, hn, Bool.false_eq_true, iff_false]
        exact List.Nodup.not_mem_erase hi.nodup
    · rw [hf.other hu, ← hi.readers u]
      rcases hR with ⟨hr, -⟩ | ⟨hr, -⟩ | ⟨hr, -⟩ <;> simp [hr, hu, List.mem_erase_of_ne hu]
  · rcases hR with ⟨hr, -⟩ | ⟨hr, -, ho⟩ | ⟨hr, -⟩
    · exact hr ▸ hi.nodup
    · rw [hr]
      exact List.nodup_cons.mpr ⟨by simpa [ho] using hi.readers t, hi.nodup⟩
    · exact hr ▸ hi.nodup.erase t
  · by_cases hu : u = t
    · subst hu
      rcases hO with ⟨ho, he⟩ | ⟨-, ho, hn, -⟩ | ⟨ho, hn, -⟩
      · rw [ho, he]; exact hi.owner u
      · simp [ho, hn]
      · simp [ho, hn]
    · rw [hf.other hu, ← hi.owner u]
      rcases hO with ⟨ho, -⟩ | ⟨hn, ho, -⟩ | ⟨ho, -, hh⟩
      · rw [ho]
      · simp [ho, hn, Ne.symm hu]
      · have := (hi.owner t).mpr hh
        simp [ho, this, Ne.symm hu]
  · rw [hf.other (by omega)]
    exact hi.fresh u (by omega)

theorem lockInv_step {cfg : Config} {s s' : Gena} (h : Step cfg s s') (hi : LockInv s) :
    LockInv s' := by
  cases h with
  | call c => exact lockInv_spawn hi (by cases c <;> rfl) (by cases c <;> rfl)
  | fire ev _ => exact lockInv_spawn ⟨hi.readers, hi.nodup, hi.owner, hi.fresh⟩ rfl rfl
  | run _ t i h => exact lockInv_run h hi

theorem lockInv_reachable {cfg : Config} {s : Gena} (h : Reachable cfg s) : LockInv s := by
  obtain ⟨c, hc⟩ := h
  induction hc with
  | refl => exact lockInv_initial c
  | tail _ hs ih => exact lockInv_step hs ih

theorem holds_handle_iff {cfg : Config} {s : Gena} (h : Reachable cfg s) (t : Nat) :
    t ∈ s.readers ↔ ∃ hd url timeOut, s.threads t = .subscribeBadHandle hd url timeOut := by
  rw [(lockInv_reachable h).readers t]
  cases s.threads t <;> simp [holdsRead]

/-- Over every run `GlobalClientSubscribeMutex` has at most one holder, the thread `subscribeOwner`
names; the handle lock stays taken between steps only by a `genaSubscribe` on a bad handle. -/
theorem client_locks_exclusive {cfg : Config} (r : Run cfg) (k : Nat) :
    (∀ t u, holdsSubscribe ((r.state k).threads t) = true →
      holdsSubscribe ((r.state k).threads u) = true → t = u) ∧
    (∀ t, (r.state k).subscribeOwner = some t ↔ holdsSubscribe ((r.state k).threads t) = true) ∧
    ∀ t, t ∈ (r.state k).readers ↔
      ∃ hd url timeOut, (r.state k).threads t = .subscribeBadHandle hd url timeOut := by
  have hi := lockInv_reachable (r.reachable k)
  exact ⟨fun t u ht hu ↦ Option.some.inj (((hi.owner t).2 ht).symm.trans ((hi.owner u).2 hu)),
    hi.owner, holds_handle_iff (r.reachable k)⟩

/-- `t` holds the handle lock and waits for `GlobalClientSubscribeMutex`, which `u` holds
while it waits for the handle lock. -/
def CyclicWait (s : Gena) (t u : Nat) : Prop :=
  t ∈ s.readers ∧ waitsSubscribe (s.threads t) ∧ s.subscribeOwner = some u ∧
    waitsHandle (s.threads u)

theorem stepProc_waitsHandle {cfg : Config} {i : Input} {u : Nat} {s : Gena}
    (hw : waitsHandle (s.threads u)) (hr : s.readers ≠ []) : stepProc cfg i u s = none := by
  unfold stepProc
  split <;> simp_all [waitsHandle]

theorem stepProc_waitsSubscribe {cfg : Config} {i : Input} {t : Nat} {s : Gena}
    (hw : waitsSubscribe (s.threads t)) (ho : s.subscribeOwner ≠ none) :
    stepProc cfg i t s = none := by
  unfold stepProc
  split <;> simp_all [waitsSubscribe]

theorem stepProc_subs {cfg : Config} {i : Input} {t : Nat} {s s' : Gena}
    (h : stepProc cfg i t s = some s') (hw : waitsHandle (s.threads t) = false) :
    s'.subs = s.subs := by
  unfold stepProc at h
  cases hp : s.threads t <;> simp only [hp, waitsHandle, reduceCtorEq, Bool.true_eq_false] at h hw
  all_goals
    repeat' split at h
    all_goals cases h
    all_goals simp

theorem cyclicWait_step {cfg : Config} {s s' : Gena} {t u : Nat} (hs : Reachable cfg s)
    (hc : CyclicWait s t u) (h : Step cfg s s') :
    CyclicWait s' t u ∧ s'.subs = s.subs ∧
      ∀ n, waitsSubscribe (s.threads n) ∨ waitsHandle (s.threads n) →
        s'.threads n = s.threads n := by
  obtain ⟨hr, hwt, ho, hwu⟩ := hc
  have hi := lockInv_reachable hs
  have hlt : ∀ n, waitsSubscribe (s.threads n) ∨ waitsHandle (s.threads n) → n < s.spawned :=
    fun n hn ↦ by
      by_contra hc
      rw [hi.fresh n (by omega)] at hn
      simp [waitsSubscribe, waitsHandle] at hn
  suffices t ∈ s'.readers ∧ s'.subscribeOwner = some u ∧ s'.subs = s.subs ∧
      ∀ n, waitsSubscribe (s.threads n) ∨ waitsHandle (s.threads n) →
        s'.threads n = s.threads n by
    obtain ⟨h1, h2, h3, h4⟩ := this
    exact ⟨⟨h1, h4 t (.inl hwt) ▸ hwt, h2, h4 u (.inr hwu) ▸ hwu⟩, h3, h4⟩
  cases h with
  | call _ | fire _ _ => exact ⟨hr, ho, rfl, fun n hn ↦ by simp [Gena.spawn, (hlt n hn).ne]⟩
  | run _ v i hv =>
    have hvw : ¬(waitsSubscribe (s.threads v) ∨ waitsHandle (s.threads v)) := by
      rintro (hw | hw)
      · rw [stepProc_waitsSubscribe hw (by simp [ho])] at hv; cases hv
      · rw [stepProc_waitsHandle hw (List.ne_nil_of_mem hr)] at hv; cases hv
    obtain ⟨hR, hO⟩ := stepProc_lockDelta hv
    refine ⟨?_, ?_, stepProc_subs hv (by simpa using (not_or.mp hvw).2),
      fun n hn ↦ (stepProc_framed hv).other (by rintro rfl; exact hvw hn)⟩
    · have hvt : v ≠ t := by rintro rfl; exact hvw (.inl hwt)
      rcases hR with ⟨hR, -⟩ | ⟨hR, -⟩ | ⟨hR, -⟩ <;> rw [hR]
      · exact hr
      · exact List.mem_cons_of_mem v hr
      · exact (List.mem_erase_of_ne (Ne.symm hvt)).mpr hr
    · rcases hO with ⟨hO, -⟩ | ⟨hn, -⟩ | ⟨-, -, hh⟩
      · exact hO ▸ ho
      · simp [ho] at hn
      · have hvu : v ≠ u := by rintro rfl; exact hvw (.inr hwu)
        exact absurd ((hi.owner v).mpr hh) (by simp [ho, Ne.symm hvu])

theorem cyclicWait_forever {cfg : Config} {s s' : Gena} {t u : Nat} (hs : Reachable cfg s)
    (hc : CyclicWait s t u) (h : Relation.ReflTransGen (Step cfg) s s') :
    CyclicWait s' t u ∧ s'.subs = s.subs ∧
      ∀ n, waitsSubscribe (s.threads n) ∨ waitsHandle (s.threads n) →
        s'.threads n = s.threads n := by
  induction h with
  | refl => exact ⟨hc, rfl, fun _ _ ↦ rfl⟩
  | tail hr hs' ih =>
    obtain ⟨hc', hsub, hth⟩ := ih
    obtain ⟨hc'', hsub', hth'⟩ := cyclicWait_step (hs.steps hr) hc' hs'
    exact ⟨hc'', hsub'.trans hsub, fun n hn ↦ (hth' n (by rwa [hth n hn])).trans (hth n hn)⟩

/-- `genaSubscribe(1, …)` holds the mutex over its answered SUBSCRIBE while `genaSubscribe(2, …)`
on a handle that is no client takes the read lock and parks on `SubscribeLock()`. -/
def deadlockSchedule : List Move :=
  let url := "http://10.0.0.5:49152/evt"
  let answer : Input :=
    ⟨.response 200 [("sid", "uuid:abcd"), ("timeout", "Second-1800")], .success⟩
  [.call (.subscribe 1 url 1800), .run 0 answer, .run 0 answer, .run 0 answer,
    .call (.subscribe 2 url 1800), .run 1 answer]

theorem bad_handle_subscribe_deadlock (cfg : Config) :
    ∃ s, Reachable cfg s ∧ ∀ s', Relation.ReflTransGen (Step cfg) s s' → CyclicWait s' 1 0 := by
  obtain ⟨s, hs⟩ : ∃ s, exec cfg deadlockSchedule (Gena.initial (some 1)) = some s := ⟨_, rfl⟩
  have hv : (exec cfg deadlockSchedule (Gena.initial (some 1))).map (fun s ↦
      (s.readers, s.subscribeOwner, waitsSubscribe (s.threads 1), waitsHandle (s.threads 0))) =
      some ([1], some 0, true, true) := rfl
  simp only [hs, Option.map_some', Option.some.injEq, Prod.mk.injEq] at hv
  have hr : Reachable cfg s := Reachable.exec ⟨some 1, .refl⟩ hs
  have hc : CyclicWait s 1 0 := ⟨by simp [hv.1], hv.2.2.1, hv.2.1, hv.2.2.2⟩
  exact ⟨s, hr, fun s' h ↦ (cyclicWait_forever hr hc h).1⟩

end Npupnp.Gena.Locks
