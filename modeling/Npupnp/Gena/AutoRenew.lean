import Npupnp.Gena.Machine

namespace Npupnp.Gena.AutoRenew

open Basic Machine

section Delay

/-- What `ScheduleGenaAutoRenew` puts in every timer it arms: a `TimeOut` other than
`UPNP_INFINITE` in the payload, and the delay `TimeOut - AUTO_RENEW_TIME`. -/
def Armed (cfg : Config) (ev : RenewEvent) : Prop :=
  ev.delay = ev.sub.timeOut - cfg.autoRenewTime ∧ ev.sub.timeOut ≠ cfg.infinite

def ArmedAll (cfg : Config) (s : Gena) : Prop :=
  ∀ ev ∈ s.events, Armed cfg ev

variable {cfg : Config} {s s' : Gena}

theorem scheduleGenaAutoRenew_delay (cfg : Config) (ret : Code) (h : Nat) (timeOut : Int)
    (sub : ClientSubscription) (n : Nat) :
    ∀ ev ∈ (scheduleGenaAutoRenew cfg ret h timeOut sub n).1,
      Armed cfg ev ∧ ev.sub.timeOut = timeOut := by
  unfold scheduleGenaAutoRenew
  split
  · simp
  · split <;> simp_all [Armed]

theorem ArmedAll.of_subset (hA : ArmedAll cfg s) (h : ∀ ev ∈ s'.events, ev ∈ s.events) :
    ArmedAll cfg s' :=
  fun ev hev ↦ hA ev (h ev hev)

theorem ArmedAll.arm {o : Option RenewEvent} (hA : ArmedAll cfg s)
    (ho : ∀ ev ∈ o, Armed cfg ev) : ArmedAll cfg (s.arm o) := by
  intro ev hev
  rw [arm_events, List.mem_append] at hev
  rcases hev with hev | hev
  · exact hA ev hev
  · exact ho ev (Option.mem_toList.mp hev)

theorem armedAll_recordSubscription (hA : ArmedAll cfg s) (i : Input) (t h : Nat)
    (url : String) (timeOut : Int) (r : SubscribeResult) :
    ArmedAll cfg (recordSubscription cfg i t h url timeOut r s) := by
  unfold recordSubscription
  split
  · exact hA
  · split
    · dsimp only
      exact ArmedAll.arm hA fun ev hev ↦ (scheduleGenaAutoRenew_delay cfg _ _ _ _ _ ev hev).1
    · exact hA

theorem armedAll_renewFind (hA : ArmedAll cfg s) (t h : Nat) (sid : String) (timeOut : Int)
    (job : Option RenewEvent) : ArmedAll cfg (renewFind t h sid timeOut job s) := by
  unfold renewFind
  split
  · split
    · exact hA
    · exact hA.of_subset fun ev hev ↦ (mem_removeEvent.mp hev).1
  · exact hA

theorem armedAll_renewRecord (hA : ArmedAll cfg s) (i : Input) (t h : Nat) (sid : String)
    (timeOut : Int) (copy : ClientSubscription) (r : SubscribeResult) (job : Option RenewEvent) :
    ArmedAll cfg (renewRecord cfg i t h sid timeOut copy r job s) := by
  unfold renewRecord
  dsimp only
  split
  · split
    · exact hA.of_subset (cancelRenew_events_subset _ copy)
    · split
      · exact hA.of_subset (cancelRenew_events_subset _ copy)
      · refine ArmedAll.of_subset ?_ (cancelRenew_events_subset _ copy)
        exact ArmedAll.arm hA fun ev hev ↦ (scheduleGenaAutoRenew_delay cfg _ _ _ _ _ ev hev).1
  · exact hA

theorem ArmedAll.stepProc {i : Input} {t : Nat} (hA : ArmedAll cfg s)
    (h : stepProc cfg i t s = some s') : ArmedAll cfg s' := by
  unfold Machine.stepProc at h
  cases hp : s.threads t <;> simp only [hp, reduceCtorEq] at h
  case subscribeRecord =>
    split_ifs at h
    cases h
    exact armedAll_recordSubscription hA _ _ _ _ _ _
  case renewEntry =>
    split_ifs at h
    cases h
    exact armedAll_renewFind hA _ _ _ _ _
  case renewRecord =>
    split_ifs at h
    cases h
    exact armedAll_renewRecord hA _ _ _ _ _ _ _ _
  case unsubscribeRequest | unregisterRequest =>
    cases h
    exact hA.of_subset (cancelRenew_events_subset _ _)
  all_goals
    repeat' split at h
    all_goals cases h
    all_goals exact hA

theorem ArmedAll.step (hA : ArmedAll cfg s) (h : Step cfg s s') : ArmedAll cfg s' := by
  cases h with
  | call c => exact hA
  | fire ev hev => exact hA.of_subset fun e he ↦ List.mem_of_mem_erase he
  | run _ t i hs => exact hA.stepProc hs

theorem armedAll_reachable (hs : Reachable cfg s) : ArmedAll cfg s := by
  obtain ⟨c, hc⟩ := hs
  induction hc with
  | refl => intro ev hev; cases hev
  | tail _ hst ih => exact ih.step hst

/-- In every reachable state each pending renewal timer carries a granted `TimeOut` other than
`UPNP_INFINITE` and fires `TimeOut - AUTO_RENEW_TIME` seconds after it was armed: after a
positive delay exactly when the grant exceeds `AUTO_RENEW_TIME`. -/
theorem renewal_delay_of_grant (hs : Reachable cfg s) :
    ∀ ev ∈ s.events, ev.delay = ev.sub.timeOut - cfg.autoRenewTime ∧
      ev.sub.timeOut ≠ cfg.infinite ∧ (0 < ev.delay ↔ cfg.autoRenewTime < ev.sub.timeOut) := by
  intro ev hev
  obtain ⟨hd, hi⟩ := armedAll_reachable hs ev hev
  exact ⟨hd, hi, by omega⟩

def shortGrant : List Move :=
  let answer : Input := ⟨.response 200 [("sid", "uuid:x"), ("timeout", "Second-5")], .success⟩
  [.call (.subscribe 1 "http://10.0.0.5:49152/evt" 1800), .run 0 answer, .run 0 answer,
    .run 0 answer, .run 0 answer]

theorem renewal_delay_of_grant_short :
    let s := (exec sampleConfig shortGrant (Gena.initial (some 1))).getD (Gena.initial none)
    ∀ ev ∈ s.events, ev.delay = ev.sub.timeOut - sampleConfig.autoRenewTime ∧
      ev.sub.timeOut ≠ sampleConfig.infinite ∧
      (0 < ev.delay ↔ sampleConfig.autoRenewTime < ev.sub.timeOut) :=
  renewal_delay_of_grant (@Reachable.exec _ shortGrant _ _ ⟨some 1, .refl⟩ rfl)

theorem renewal_delay_negative :
    ∃ s, exec sampleConfig shortGrant (Gena.initial (some 1)) = some s ∧
      s.events.map (fun ev ↦ (ev.sub.timeOut, ev.delay)) = [(5, -5)] :=
  ⟨_, rfl, rfl⟩

end Delay

section ScheduleFailure

variable {cfg : Config} {i : Input} {t h : Nat} {url sid : String} {timeOut granted : Int}
  {s s' : Gena}

/-- `genaSubscribe` when `gTimerThread->schedule` fails on a granted subscription: the call
returns the scheduler's error, yet the entry stays at the front of the table, unarmed, and
`out_sid` holds its SID. -/
theorem subscribe_schedule_failure
    (hp : s.threads t = .subscribeRecord h url timeOut (.ok sid granted))
    (hc : s.client = some h) (hg : granted ≠ cfg.infinite) (hi : i.schedule ≠ .success)
    (hs : stepProc cfg i t s = some s') :
    s'.threads t = .subscribed i.schedule sid granted ∧ s'.subs = ⟨-1, sid, url⟩ :: s.subs ∧
      s'.events = s.events := by
  simp only [Machine.stepProc, hp] at hs
  split_ifs at hs
  cases hs
  simp [recordSubscription, scheduleGenaAutoRenew, hc, hg, hi, armedId, Gena.arm]

def grantedSubscribe : List Move :=
  let answer : Input := ⟨.response 200 [("sid", "uuid:x"), ("timeout", "Second-1800")], .success⟩
  [.call (.subscribe 1 "http://10.0.0.5:49152/evt" 1800), .run 0 answer, .run 0 answer,
    .run 0 answer]

theorem subscribe_schedule_failure_oom :
    let s := (exec sampleConfig grantedSubscribe (Gena.initial (some 1))).getD (Gena.initial none)
    ∃ s', stepProc sampleConfig ⟨.badUrl, .outOfMemory⟩ 0 s = some s' ∧
      s'.threads 0 = .subscribed .outOfMemory "uuid:x" 1800 ∧
      s'.subs = ⟨-1, "uuid:x", "http://10.0.0.5:49152/evt"⟩ :: s.subs ∧ s'.events = s.events :=
  by intro s; exact ⟨_, rfl, @subscribe_schedule_failure sampleConfig ⟨.badUrl, .outOfMemory⟩ 0 1
    "http://10.0.0.5:49152/evt" "uuid:x" 1800 1800 s _ rfl rfl (by decide) (by decide) rfl⟩

end ScheduleFailure

end Npupnp.Gena.AutoRenew
