import Npupnp.Gena.Race

namespace Npupnp.Gena.Unregister

open Basic Notify Machine Locks Race

def subscribing : Proc → Bool
  | .subscribeEntry .. | .subscribeBadHandle .. | .subscribeLock .. | .subscribeRequest ..
  | .subscribeRecord .. => true
  | _ => false

/-- The points from which a thread can still call the user back once the table is empty:
a NOTIFY handler or job about to call, or an auto-renew job not yet past its renewal. -/
def mayCallBack : Proc → Bool
  | .upcall .. | .jobCallback .. | .jobEntry _ => true
  | .renewRequest _ _ _ _ job | .renewRecord _ _ _ _ _ job => job.isSome
  | _ => false

@[simp] theorem mayCallBack_renewRequest (h : Nat) (sid : String) (timeOut : Int)
    (copy : ClientSubscription) (job : Option RenewEvent) :
    mayCallBack (.renewRequest h sid timeOut copy job) = job.isSome := rfl

@[simp] theorem mayCallBack_renewRecord (h : Nat) (sid : String) (timeOut : Int)
    (copy : ClientSubscription) (r : SubscribeResult) (job : Option RenewEvent) :
    mayCallBack (.renewRecord h sid timeOut copy r job) = job.isSome := rfl

def expired (ev : RenewEvent) : Upcall :=
  .subscriptionExpired { ev.sub with errCode := .success }

def Harmless (cfg : Config) (E : List RenewEvent) (p : Proc) : Prop :=
  (subscribing p = false ∧ mayCallBack p = false) ∨ (∃ ev ∈ E, p = .jobEntry ev) ∨
    (cfg.autoRenewTime = 0 ∧
      ∃ ev ∈ E, p = .jobCallback ev.handle (expired ev) ∨ p = .upcall ev.handle (expired ev))

theorem harmless_entry {cfg : Config} {E : List RenewEvent} (c : Call)
    (hs : subscribing c.entry = false) : Harmless cfg E c.entry := by
  cases c <;> simp_all [Harmless, Call.entry, mayCallBack]

section Emptied

variable {cfg : Config} {i : Input} {t h : Nat} {sid : String} {timeOut : Int}
  {copy : ClientSubscription} {r : SubscribeResult} {job : Option RenewEvent} {s : Gena}

theorem renewFind_nil (h0 : s.subs = []) :
    renewFind t h sid timeOut job s =
      s.setProc t (renewDone job (if s.client = some h then .badSid else .badHandle) timeOut) := by
  unfold renewFind
  split <;> simp_all

theorem renewRecord_nil (h0 : s.subs = []) :
    (renewRecord cfg i t h sid timeOut copy r job s).subs = [] ∧
      (renewRecord cfg i t h sid timeOut copy r job s).events ⊆ s.events ∧
      (renewRecord cfg i t h sid timeOut copy r job s).upcalls = s.upcalls ∧
      ∃ rc t', (renewRecord cfg i t h sid timeOut copy r job s).threads t = renewDone job rc t' := by
  unfold renewRecord
  dsimp only
  split
  · split
    · simp [h0, removeSid]
    · simp [h0]
  · simp [h0]

end Emptied

theorem stepProc_emptied {cfg : Config} {i : Input} {t : Nat} {s s' : Gena}
    (h0 : s.subs = []) (hns : subscribing (s.threads t) = false)
    (hs : stepProc cfg i t s = some s') : s'.subs = [] ∧ s'.events ⊆ s.events := by
  unfold stepProc at hs
  cases hp : s.threads t <;> simp only [hp, reduceCtorEq, subscribing, Bool.true_eq_false] at hs hns
  case renewEntry =>
    split_ifs at hs
    cases hs
    simp [renewFind_nil h0, h0]
  case renewRecord =>
    split_ifs at hs
    cases hs
    exact (renewRecord_nil h0).imp_right And.left
  all_goals
    repeat' split at hs
    all_goals cases hs
    all_goals simp [h0, removeSid]

@[simp high] theorem subscribing_renewDone (job : Option RenewEvent) (rc : Code) (t' : Int) :
    subscribing (renewDone job rc t') = false := by
  unfold renewDone; split <;> (try split) <;> rfl

theorem mayCallBack_renewDone {job : Option RenewEvent} {rc : Code} (t' : Int)
    (h : job = none ∨ rc = .badSid ∨ rc = .badHandle) : mayCallBack (renewDone job rc t') = false := by
  unfold renewDone
  split
  · rfl
  · split
    · rcases h with h | rfl | rfl <;> simp_all
    · rfl

@[simp high] theorem mayCallBack_renewDone_none (rc : Code) (t' : Int) :
    mayCallBack (renewDone none rc t') = false := mayCallBack_renewDone t' (.inl rfl)

@[simp high] theorem mayCallBack_renewDone_bad (job : Option RenewEvent) (c : Prop) [Decidable c]
    (t' : Int) : mayCallBack (renewDone job (if c then .badSid else .badHandle) t') = false := by
  split <;> exact mayCallBack_renewDone t' (by simp)

@[simp high] theorem renewRecord_none_threads (cfg : Config) (i : Input) (t h : Nat) (sid : String)
    (timeOut : Int) (copy : ClientSubscription) (r : SubscribeResult) (s : Gena) :
    subscribing ((renewRecord cfg i t h sid timeOut copy r none s).threads t) = false ∧
      mayCallBack ((renewRecord cfg i t h sid timeOut copy r none s).threads t) = false := by
  unfold renewRecord
  dsimp only
  split
  · split
    · simp
    · split <;> simp
  · simp

theorem stepProc_calm {cfg : Config} {i : Input} {t : Nat} {s s' : Gena}
    (h0 : s.subs = []) (hp : subscribing (s.threads t) = false ∧ mayCallBack (s.threads t) = false)
    (hs : stepProc cfg i t s = some s') :
    (subscribing (s'.threads t) = false ∧ mayCallBack (s'.threads t) = false) ∧
      s'.upcalls = s.upcalls := by
  unfold stepProc at hs
  cases hq : s.threads t <;>
    simp only [hq, reduceCtorEq, subscribing, mayCallBack, Bool.true_eq_false, and_false,
      false_and] at hs hp
  case renewEntry =>
    split_ifs at hs
    cases hs
    simp [renewFind_nil h0]
  case renewRecord h sid timeOut copy r job =>
    split_ifs at hs
    cases hs
    obtain ⟨-, -, hu, rc, t', ht⟩ :=
      (renewRecord_nil h0 : (renewRecord cfg i t h sid timeOut copy r job s).subs = [] ∧ _)
    simp_all
  all_goals
    repeat' split at hs
    all_goals cases hs
    all_goals simp_all [subscribing, mayCallBack]

theorem stepProc_harmless {cfg : Config} {i : Input} {t : Nat} {s s' : Gena}
    {E : List RenewEvent} (h0 : s.subs = []) (hp : Harmless cfg E (s.threads t))
    (hs : stepProc cfg i t s = some s') :
    Harmless cfg E (s'.threads t) ∧ (s'.upcalls = s.upcalls ∨
      ∃ ev ∈ E, cfg.autoRenewTime = 0 ∧ s'.upcalls = s.upcalls ++ [(t, ev.handle, expired ev)]) := by
  rcases hp with hc | ⟨ev, hev, hq⟩ | ⟨hz, ev, hev, hq | hq⟩
  · obtain ⟨hc', hu⟩ := stepProc_calm h0 hc hs
    exact ⟨.inl hc', .inl hu⟩
  · simp only [stepProc, hq] at hs
    split at hs <;> cases hs
    · exact ⟨.inr (.inr ⟨‹_›, ev, hev, .inl (by simp [expired])⟩), .inl rfl⟩
    · exact ⟨.inl (by simp [subscribing, mayCallBack]), .inl rfl⟩
  · simp only [stepProc, hq] at hs
    split at hs <;> cases hs
    · exact ⟨.inr (.inr ⟨hz, ev, hev, .inr (by simp)⟩), .inl rfl⟩
    · exact ⟨.inl (by simp [subscribing, mayCallBack]), .inl rfl⟩
  · simp only [stepProc, hq, Option.some.injEq] at hs
    subst hs
    exact ⟨.inl (by simp [subscribing, mayCallBack]), .inr ⟨ev, hev, hz, by simp⟩⟩

def Unregistering (h : Nat) (p : Proc) : Prop :=
  p = .unregisterLoop h ∨ (∃ copy, p = .unregisterRequest h copy) ∨ ∃ rc, p = .returned rc

theorem stepProc_unregistering {cfg : Config} {i : Input} {t h : Nat} {s s' : Gena}
    (hp : Unregistering h (s.threads t)) (hs : stepProc cfg i t s = some s') :
    Unregistering h (s'.threads t) ∧
      (s'.threads t = .returned .success → s.threads t ≠ .returned .success → s'.subs = []) := by
  rcases hp with hp | ⟨copy, hp⟩ | ⟨rc, hp⟩
  · simp only [stepProc, hp] at hs
    split at hs
    · split at hs
      · split at hs <;> cases hs
        · exact ⟨.inr (.inr ⟨.success, by simp⟩), fun _ _ ↦ rfl⟩
        · exact ⟨.inr (.inl ⟨_, by simp; rfl⟩), by simp⟩
      · cases hs
        exact ⟨.inr (.inr ⟨.badHandle, by simp⟩), by simp⟩
    · cases hs
  · simp only [stepProc, hp, Option.some.injEq] at hs
    subst hs
    exact ⟨.inl (by simp), by simp⟩
  · rw [stepProc_of_terminal (by simp [hp, terminal])] at hs
    cases hs

/-- What holds after `genaUnregisterClient` returns while no `genaSubscribe` runs: `E`, `S`, `P`,
`U` are the pending timers, thread count, threads' points and upcalls at the return. -/
structure AfterReturn (cfg : Config) (E : List RenewEvent) (S : Nat) (P : Nat → Proc)
    (U : List (Nat × Nat × Upcall)) (s : Gena) : Prop where
  empty : s.subs = []
  events : s.events ⊆ E
  threads : ∀ t, (t < S ∧ mayCallBack (P t)) ∨ Harmless cfg E (s.threads t)
  upcalls : ∃ late, s.upcalls = U ++ late ∧ ∀ e ∈ late, (e.1 < S ∧ mayCallBack (P e.1)) ∨
    (cfg.autoRenewTime = 0 ∧ ∃ ev ∈ E, e.2 = (ev.handle, expired ev))

theorem afterReturn_step {cfg : Config} {E : List RenewEvent} {S : Nat} {P : Nat → Proc}
    {U : List (Nat × Nat × Upcall)} {s s' : Gena} (hA : AfterReturn cfg E S P U s)
    (h : Step cfg s s') (hns : ∀ t, subscribing (s.threads t) = false)
    (hns' : ∀ t, subscribing (s'.threads t) = false) : AfterReturn cfg E S P U s' := by
  cases h with
  | call c =>
    refine ⟨hA.empty, hA.events, fun t ↦ ?_, hA.upcalls⟩
    by_cases ht : t = s.spawned
    · subst ht
      have := hns' s.spawned
      simp only [Gena.spawn, setProc_threads, Function.update_same] at this ⊢
      exact .inr (harmless_entry c this)
    · simpa [Gena.spawn, ht] using hA.threads t
  | fire ev hev =>
    refine ⟨hA.empty, fun e he ↦ hA.events (List.mem_of_mem_erase he), fun t ↦ ?_, hA.upcalls⟩
    by_cases ht : t = s.spawned
    · subst ht
      simp only [Gena.spawn, setProc_threads, Function.update_same]
      exact .inr (.inr (.inl ⟨ev, hA.events hev, rfl⟩))
    · simpa [Gena.spawn, ht] using hA.threads t
  | run _ t i hs =>
    obtain ⟨h0, hev⟩ := stepProc_emptied hA.empty (hns t) hs
    obtain ⟨late, hU, hlate⟩ := hA.upcalls
    have hth : ∀ u, u ≠ t → s'.threads u = s.threads u := fun u hu ↦ (stepProc_framed hs).other hu
    rcases hA.threads t with hin | hp
    · obtain ⟨-, us, hus, hust⟩ := stepProc_tagged hs
      refine ⟨h0, fun e he ↦ hA.events (hev he), fun u ↦ ?_, late ++ us,
        by rw [hus, hU, List.append_assoc], fun e he ↦ ?_⟩
      · by_cases hu : u = t
        · exact .inl (hu ▸ hin)
        · exact hth u hu ▸ hA.threads u
      · rcases List.mem_append.mp he with he | he
        · exact hlate e he
        · exact .inl (hust e he ▸ hin)
    · obtain ⟨hp', hup⟩ := stepProc_harmless hA.empty hp hs
      refine ⟨h0, fun e he ↦ hA.events (hev he), fun u ↦ ?_, ?_⟩
      · by_cases hu : u = t
        · exact .inr (hu ▸ hp')
        · exact hth u hu ▸ hA.threads u
      · rcases hup with hup | ⟨ev, hevE, hz, hup⟩
        · exact ⟨late, hup ▸ hU, hlate⟩
        · refine ⟨late ++ [(t, ev.handle, expired ev)], by rw [hup, hU, List.append_assoc],
            fun e he ↦ ?_⟩
          rcases List.mem_append.mp he with he | he
          · exact hlate e he
          · exact .inr ⟨hz, ev, hevE, by simp_all⟩

/-- After `genaUnregisterClient(h)` succeeds, while no `genaSubscribe` runs, the table stays empty,
no timer is armed, and each later callback comes from a thread in flight at the return or is an
expiry callback under `AUTO_RENEW_TIME == 0`. -/
theorem unregister_late_callbacks_in_flight {cfg : Config} (r : Run cfg) (a k u h : Nat)
    (ha : (r.state a).threads u = .unregisterLoop h) (hak : a ≤ k)
    (hret : (r.state (k + 1)).threads u = .returned .success)
    (hbefore : (r.state k).threads u ≠ .returned .success)
    (hnosub : ∀ j, k < j → ∀ t, subscribing ((r.state j).threads t) = false) :
    ∀ j, k < j → (r.state j).subs = [] ∧ (r.state j).events ⊆ (r.state (k + 1)).events ∧
      ∃ late, (r.state j).upcalls = (r.state (k + 1)).upcalls ++ late ∧ ∀ e ∈ late,
        (e.1 < (r.state (k + 1)).spawned ∧ mayCallBack ((r.state (k + 1)).threads e.1)) ∨
        (cfg.autoRenewTime = 0 ∧ ∃ ev ∈ (r.state (k + 1)).events, e.2 = (ev.handle, expired ev)) := by
  have h0 : (r.state (k + 1)).subs = [] := by
    have hp := run_stays r (Unregistering h) (by simp [Unregistering])
      (fun hp hs ↦ (stepProc_unregistering hp hs).1) (.inl ha) hak
    have hact : (r.state k).threads u ≠ .idle := by
      rcases hp with h' | ⟨_, h'⟩ | ⟨_, h'⟩ <;> simp [h']
    rcases run_own r k u hact with ⟨h', -⟩ | ⟨i, hs⟩
    · exact absurd (h' ▸ hret) hbefore
    · exact (stepProc_unregistering hp hs).2 hret hbefore
  have hstart : AfterReturn cfg (r.state (k + 1)).events (r.state (k + 1)).spawned
      (r.state (k + 1)).threads (r.state (k + 1)).upcalls (r.state (k + 1)) := by
    refine ⟨h0, List.Subset.refl _, fun t ↦ ?_, [], by simp, by simp⟩
    by_cases hm : mayCallBack ((r.state (k + 1)).threads t)
    · refine .inl ⟨?_, hm⟩
      by_contra hlt
      have hidle := (lockInv_reachable (r.reachable (k + 1))).fresh t (by omega)
      simp [hidle, mayCallBack] at hm
    · exact .inr (.inl ⟨hnosub (k + 1) (by omega) t, by simpa using hm⟩)
  intro j hj
  have hA : AfterReturn cfg (r.state (k + 1)).events (r.state (k + 1)).spawned
      (r.state (k + 1)).threads (r.state (k + 1)).upcalls (r.state j) := by
    induction j, (show k + 1 ≤ j from hj) using Nat.le_induction with
    | base => exact hstart
    | succ j hj ih =>
      rcases r.step j with hs | hs
      · exact afterReturn_step ih hs (hnosub j (by omega)) (hnosub (j + 1) (by omega))
      · exact hs ▸ ih
  exact ⟨hA.empty, hA.events, hA.upcalls⟩

theorem subscribing_all {cfg : Config} {s : Gena} (hr : Reachable cfg s)
    (h : ∀ t < s.spawned, subscribing (s.threads t) = false) :
    ∀ t, subscribing (s.threads t) = false := fun t ↦
  if ht : t < s.spawned then h t ht
  else by rw [(lockInv_reachable hr).fresh t (by omega)]; rfl

/-- A NOTIFY for a live subscription is past its lookup, holding the callback, when
`genaUnregisterClient(1)` empties the table and returns; the handler then calls back. -/
def callbackAfterUnregister : List Move :=
  let answer : Input :=
    ⟨.response 200 [("sid", "uuid:x"), ("timeout", "Second-1800")], .success⟩
  let notify : Transaction :=
    { raceNotify with
      headers := [("sid", "uuid:x"), ("seq", "1"), ("nt", "upnp:event"), ("nts", "upnp:propchange")] }
  [.call (.subscribe 1 "http://10.0.0.5:49152/evt" 1800), .run 0 answer, .run 0 answer,
    .run 0 answer, .run 0 answer, .call (.notify notify), .run 1 answer, .run 1 answer,
    .call (.unregister 1), .run 2 answer, .run 2 answer, .run 2 answer, .run 1 answer]

theorem callback_after_unregister_returned :
    ∃ s s', exec sampleConfig (callbackAfterUnregister.take 12) (Gena.initial (some 1)) = some s ∧
      s.threads 2 = .returned .success ∧ s.upcalls = [] ∧
      exec sampleConfig (callbackAfterUnregister.drop 12) s = some s' ∧
      s'.upcalls = [(1, 1, .eventReceived "uuid:x" 1 [("Foo", "1")])] :=
  ⟨_, _, rfl, rfl, rfl, rfl, rfl⟩

def callbackRun : Run sampleConfig :=
  Run.ofExec sampleConfig callbackAfterUnregister (Gena.initial (some 1)) ⟨some 1, .refl⟩ rfl

theorem unregister_late_callbacks_in_flight_notify :
    (callbackRun.state 13).subs = [] ∧
      (callbackRun.state 13).events ⊆ (callbackRun.state 12).events ∧
      ∃ late, (callbackRun.state 13).upcalls = (callbackRun.state 12).upcalls ++ late ∧
        ∀ e ∈ late, (e.1 < (callbackRun.state 12).spawned ∧
            mayCallBack ((callbackRun.state 12).threads e.1)) ∨
          (sampleConfig.autoRenewTime = 0 ∧
            ∃ ev ∈ (callbackRun.state 12).events, e.2 = (ev.handle, expired ev)) := by
  have hnosub : ∀ j, 11 < j → ∀ t, subscribing ((callbackRun.state j).threads t) = false := by
    intro j hj
    refine subscribing_all (callbackRun.reachable j) ?_
    rcases (show j = 12 ∨ 13 ≤ j by omega) with rfl | hj
    · decide
    · rw [callbackRun, Run.ofExec_state_of_le hj]
      decide
  exact unregister_late_callbacks_in_flight callbackRun 9 11 2 1 rfl (by omega) rfl (by decide)
    hnosub 13 (by omega)

end Npupnp.Gena.Unregister