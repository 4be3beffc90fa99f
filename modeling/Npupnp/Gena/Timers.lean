import Mathlib.Data.List.Nodup
import Npupnp.Gena.Race

namespace Npupnp.Gena.Timers

open Basic Notify Machine Locks Race

/-- The thread renews `x`: the job of a fired timer for `x`, the renewal it runs, or any
renewal of `x` between its two critical sections. -/
def Renewing (x : String) : Proc → Prop
  | .jobEntry ev => ev.sub.sid = x
  | .renewEntry _ sid _ (some _) | .renewRequest _ sid _ _ _ | .renewRecord _ sid _ _ _ _ =>
    sid = x
  | _ => False

def timersFor (s : Gena) (h : Nat) (x : String) : List RenewEvent :=
  s.events.filter (fun ev ↦ ev.handle = h ∧ ev.sub.sid = x)

def NoUserRenew (s : Gena) : Prop :=
  ∀ t h sid timeOut, s.threads t ≠ .renewEntry h sid timeOut none

def Unknown (s : Gena) (sid : String) : Prop :=
  sid ∉ s.subs.map (·.sid) ∧ (∀ ev ∈ s.events, ev.sub.sid ≠ sid) ∧
    ∀ u, ¬ Renewing sid (s.threads u)

def IssueOk (s : Gena) : Proc → Prop
  | .subscribeRecord _ _ _ (.ok sid _) => Unknown s sid
  | .renewRecord _ x _ _ (.ok sid _) _ => sid = x ∨ Unknown s sid
  | _ => True

/-- Every SID about to be recorded is unknown to the client, or the one a renewal renews. -/
def FreshIssue (s : Gena) : Prop := ∀ t, IssueOk s (s.threads t)

def Detached (s : Gena) (x : String) : Prop :=
  (∀ ev ∈ s.events, ev.sub.sid ≠ x) ∧ ∀ e ∈ s.subs, e.sid = x → e.renewEventId = -1

def ThreadOk (s : Gena) : Proc → Prop
  | .renewRequest _ x _ copy _ | .renewRecord _ x _ copy _ _ =>
    copy.renewEventId = -1 ∧ Detached s x
  | _ => True

/-- Fresh distinct timer ids and distinct SIDs; the timer of an entry's SID is the entry's
own; and each SID has at most one pending timer or thread renewing it. -/
structure TimerInv (s : Gena) : Prop where
  ids : (s.events.map (·.eventId)).Nodup
  fresh : ∀ ev ∈ s.events, ev.eventId < s.nextEventId
  nodup : (s.subs.map (·.sid)).Nodup
  single : ∀ ev ∈ s.events, ∀ e ∈ s.subs, ev.sub.sid = e.sid →
    (ev.eventId : Int) = e.renewEventId
  threads : ∀ t, ThreadOk s (s.threads t)
  one : ∀ ev₁ ∈ s.events, ∀ ev₂ ∈ s.events, ev₁.sub.sid = ev₂.sub.sid → ev₁ = ev₂
  idle : ∀ ev ∈ s.events, ∀ t, ¬ Renewing ev.sub.sid (s.threads t)
  solo : ∀ t u x, Renewing x (s.threads t) → Renewing x (s.threads u) → t = u

theorem timerInv_initial (client : Option Nat) : TimerInv (Gena.initial client) where
  ids := List.nodup_nil
  fresh := by simp [Gena.initial]
  nodup := List.nodup_nil
  single := by simp [Gena.initial]
  threads _ := trivial
  one := by simp [Gena.initial]
  idle := by simp [Gena.initial]
  solo _ _ _ h := False.elim h

section Frame

variable {s s' : Gena} {t : Nat}

def Shrink (s s' : Gena) : Prop :=
  s'.events.Sublist s.events ∧
    (∀ e ∈ s'.subs, e ∈ s.subs ∨ (e.renewEventId = -1 ∧ ∀ ev ∈ s'.events, ev.sub.sid ≠ e.sid)) ∧
    s'.nextEventId = s.nextEventId ∧ (s'.subs.map (·.sid)).Sublist (s.subs.map (·.sid))

def Grow (s s' : Gena) (y : String) : Prop :=
  (∀ ev ∈ s'.events, ev ∈ s.events ∨ ev.sub.sid = y) ∧ ∀ e ∈ s'.subs, e ∈ s.subs ∨ e.sid = y

theorem Detached.shrink {x : String} (h : Shrink s s') (hd : Detached s x) : Detached s' x :=
  ⟨fun ev he ↦ hd.1 ev (h.1.subset he), fun e he hx ↦ (h.2.1 e he).elim (hd.2 e · hx) (·.1)⟩

theorem Detached.grow {x y : String} (h : Grow s s' y) (hxy : x ≠ y) (hd : Detached s x) :
    Detached s' x :=
  ⟨fun ev he ↦ (h.1 ev he).elim (hd.1 ev) fun h' h'' ↦ hxy (h''.symm.trans h'),
    fun e he hx ↦ (h.2 e he).elim (hd.2 e · hx) fun h' ↦ absurd (hx.symm.trans h') hxy⟩

theorem ThreadOk.shrink {p : Proc} (h : Shrink s s') (hp : ThreadOk s p) : ThreadOk s' p := by
  cases p
  case renewRequest => exact ⟨hp.1, hp.2.shrink h⟩
  case renewRecord => exact ⟨hp.1, hp.2.shrink h⟩
  all_goals trivial

theorem ThreadOk.grow {p : Proc} {y : String} (h : Grow s s' y) (hy : ¬ Renewing y p)
    (hp : ThreadOk s p) : ThreadOk s' p := by
  cases p
  case renewRequest => exact ⟨hp.1, hp.2.grow h hy⟩
  case renewRecord => exact ⟨hp.1, hp.2.grow h hy⟩
  all_goals trivial

@[simp] theorem threadOk_setProc {u : Nat} {p q : Proc} :
    ThreadOk (s.setProc u q) p ↔ ThreadOk s p := by
  cases p <;> exact Iff.rfl

theorem renewing_of_framed (hfr : Framed t s s')
    (hk : ∀ x, Renewing x (s'.threads t) → Renewing x (s.threads t)) {u : Nat} {x : String}
    (hu : Renewing x (s'.threads u)) : Renewing x (s.threads u) := by
  by_cases hut : u = t
  · subst hut; exact hk x hu
  · rwa [hfr.other hut] at hu

theorem TimerInv.of_shrink (hI : TimerInv s) (hfr : Framed t s s') (hsh : Shrink s s')
    (hnew : ThreadOk s' (s'.threads t))
    (hk : ∀ x, Renewing x (s'.threads t) → Renewing x (s.threads t)) : TimerInv s' := by
  have hev := hsh.1.subset
  refine ⟨hI.ids.sublist (hsh.1.map _), fun ev he ↦ hsh.2.2.1 ▸ hI.fresh ev (hev he),
    hI.nodup.sublist hsh.2.2.2, fun ev he e he' hsid ↦ ?_, fun u ↦ ?_,
    fun ev₁ h₁ ev₂ h₂ ↦ hI.one ev₁ (hev h₁) ev₂ (hev h₂),
    fun ev he u hu ↦ hI.idle ev (hev he) u (renewing_of_framed hfr hk hu),
    fun u v x hu hv ↦ hI.solo u v x (renewing_of_framed hfr hk hu) (renewing_of_framed hfr hk hv)⟩
  · rcases hsh.2.1 e he' with he' | ⟨-, hno⟩
    · exact hI.single ev (hev he) e he' hsid
    · exact absurd hsid (hno ev he)
  · by_cases hu : u = t
    · exact hu ▸ hnew
    · rw [hfr.other hu]; exact (hI.threads u).shrink hsh

theorem shrink_of_eq (hs : s'.subs = s.subs) (he : s'.events = s.events)
    (hn : s'.nextEventId = s.nextEventId) : Shrink s s' :=
  ⟨he ▸ List.Sublist.refl _, fun _ h ↦ .inl (hs ▸ h), hn, hs ▸ List.Sublist.refl _⟩

theorem TimerInv.setProc {x : Gena} {p : Proc} (hI : TimerInv s)
    (hx : x.threads = s.threads) (hsp : x.spawned = s.spawned) (hc : x.client = s.client)
    (hs : x.subs = s.subs) (he : x.events = s.events) (hn : x.nextEventId = s.nextEventId)
    (hnew : ThreadOk x p) (hk : ∀ y, Renewing y p → Renewing y (s.threads t)) :
    TimerInv (x.setProc t p) :=
  hI.of_shrink (framed_setProc p hx hsp hc) (shrink_of_eq (by simpa using hs) (by simpa using he)
    (by simpa using hn)) (by simpa using hnew) (by simpa using hk)

end Frame

section Steps

variable {s s' : Gena} {t h : Nat}

theorem renewDone_renewing {job : Option RenewEvent} {c : Code} {timeOut : Int} {x : String} :
    ¬ Renewing x (renewDone job c timeOut) := by
  unfold renewDone
  split
  · exact id
  · split <;> exact id

theorem threadOk_renewDone (job : Option RenewEvent) (c : Code) (timeOut : Int) :
    ThreadOk s (renewDone job c timeOut) := by
  unfold renewDone
  split
  · trivial
  · split <;> trivial

theorem TimerInv.finish {job : Option RenewEvent} {c : Code} {timeOut : Int}
    (hI : TimerInv s) : TimerInv (s.setProc t (renewDone job c timeOut)) :=
  hI.setProc rfl rfl rfl rfl rfl rfl (threadOk_renewDone ..) fun _ h ↦ absurd h renewDone_renewing

theorem TimerInv.detach {sid : String} {timeOut : Int} {job : Option RenewEvent}
    {e : ClientSubscription} (hI : TimerInv s) (hf : findSid s.subs sid = some e)
    (hfr : Framed t s s')
    (hs : s'.subs = updateSid (fun e ↦ { e with renewEventId := -1 }) sid s.subs)
    (he : s'.events = removeEvent s.events e.renewEventId) (hn : s'.nextEventId = s.nextEventId)
    (hth : s'.threads t = .renewRequest h sid timeOut { e with renewEventId := -1 } job)
    (hk : Renewing sid (s.threads t)) : TimerInv s' := by
  have hex := findSid_sid hf
  have hsubs : s'.subs = s.subs.map (fun e' ↦ if e'.sid = sid then { e' with renewEventId := -1 }
      else e') := hs.trans (updateSid_eq_map hI.nodup)
  have hno : ∀ ev ∈ s'.events, ev.sub.sid ≠ sid := fun ev hev hsid ↦ by
    rw [he, mem_removeEvent] at hev
    exact hev.2 (hI.single ev hev.1 e (findSid_mem hf) (hsid.trans hex.symm))
  have hdet : Detached s' sid := by
    refine ⟨hno, fun e' he' hx ↦ ?_⟩
    rw [hsubs] at he'
    obtain ⟨e0, -, rfl⟩ := List.mem_map.mp he'
    by_cases h0 : e0.sid = sid
    · simp [h0]
    · simp [h0] at hx
  have hsh : Shrink s s' := by
    refine ⟨he ▸ List.filter_sublist _, fun e' he' ↦ ?_, hn,
      by rw [hs, map_sid_updateSid (f := fun e ↦ { e with renewEventId := -1 }) (fun _ ↦ rfl)]⟩
    rw [hsubs] at he'
    obtain ⟨e0, he0, rfl⟩ := List.mem_map.mp he'
    by_cases h0 : e0.sid = sid
    · rw [if_pos h0]
      exact .inr ⟨rfl, fun ev hev ↦ h0 ▸ hno ev hev⟩
    · rw [if_neg h0]
      exact .inl he0
  refine hI.of_shrink hfr hsh (by rw [hth]; exact ⟨rfl, hdet⟩) fun x hx ↦ ?_
  rw [hth] at hx
  exact (show sid = x from hx) ▸ hk

theorem timerInv_renewFind {sid : String} {timeOut : Int} {job : Option RenewEvent}
    (hI : TimerInv s) (hnu : NoUserRenew s) (hp : s.threads t = .renewEntry h sid timeOut job) :
    TimerInv (renewFind t h sid timeOut job s) := by
  have hk : Renewing sid (s.threads t) := by
    cases job with
    | none => exact absurd hp (hnu t h sid timeOut)
    | some ev => rw [hp]; exact rfl
  unfold renewFind
  split
  · split
    · exact hI.finish
    · rename_i e hf
      exact hI.detach hf (framed_setProc _ rfl rfl rfl) rfl rfl rfl (Function.update_same _ _ _) hk
  · exact hI.finish

theorem scheduleGenaAutoRenew_armed (cfg : Config) (ret : Code) (h : Nat) (timeOut : Int)
    (sub : ClientSubscription) (n : Nat) :
    ∀ v ∈ (scheduleGenaAutoRenew cfg ret h timeOut sub n).1, v.eventId = n ∧ v.sub.sid = sub.sid := by
  unfold scheduleGenaAutoRenew
  split
  · simp
  · split <;> simp

theorem TimerInv.arm_ids {x : Gena} {ev : Option RenewEvent} (hI : TimerInv s)
    (hxe : x.events = s.events) (hxn : x.nextEventId = s.nextEventId)
    (hev : ∀ v ∈ ev, v.eventId = s.nextEventId) :
    ((x.arm ev).events.map (·.eventId)).Nodup ∧
      ∀ w ∈ (x.arm ev).events, w.eventId < (x.arm ev).nextEventId := by
  cases ev with
  | none => exact ⟨hxe ▸ hI.ids, fun w hw ↦ hxn ▸ hI.fresh w (hxe ▸ hw)⟩
  | some v =>
    have hv := hev v rfl
    simp only [Gena.arm, hxe, hxn, List.map_append, List.map_cons, List.map_nil]
    refine ⟨hI.ids.append (List.nodup_singleton _) ?_, fun w hw ↦ ?_⟩
    · simpa using fun w hw h' ↦ by have := hI.fresh w hw; omega
    · rcases List.mem_append.mp hw with hw | hw
      · have := hI.fresh w hw; omega
      · rw [List.mem_singleton.mp hw]; omega

theorem TimerInv.record {y : String} {ev : Option RenewEvent} {x : Gena} {p : Proc}
    (hI : TimerInv s) (hxt : x.threads = s.threads) (hxsp : x.spawned = s.spawned)
    (hxe : x.events = s.events) (hxn : x.nextEventId = s.nextEventId) (hxc : x.client = s.client)
    (hsubs : ∀ e ∈ x.subs, (e ∈ s.subs ∧ e.sid ≠ y) ∨
      (e.sid = y ∧ e.renewEventId = armedId (-1) ev))
    (hev : ∀ v ∈ ev, v.eventId = s.nextEventId ∧ v.sub.sid = y)
    (hevs : ∀ w ∈ s.events, w.sub.sid ≠ y) (hnd : (x.subs.map (·.sid)).Nodup)
    (hfly : ∀ u, u ≠ t → ¬ Renewing y (s.threads u)) (hnew : ∀ z, ThreadOk z p)
    (hp : ∀ z, ¬ Renewing z p) : TimerInv ((x.arm ev).setProc t p) := by
  have hfr : Framed t s ((x.arm ev).setProc t p) :=
    framed_setProc p (by simp [hxt]) (by simp [hxsp]) (by simp [hxc])
  have hmem : ∀ {w}, w ∈ ((x.arm ev).setProc t p).events → w ∈ s.events ∨ ev = some w :=
    fun hw ↦ by simpa [mem_arm_events, hxe] using hw
  have hy : ∀ {w}, ev = some w → w.sub.sid = y := fun hw ↦ (hev _ (hw ▸ rfl)).2
  have hk : ∀ z, Renewing z (((x.arm ev).setProc t p).threads t) → Renewing z (s.threads t) :=
    fun z hz ↦ absurd (by simpa using hz) (hp z)
  have hgrow : Grow s ((x.arm ev).setProc t p) y :=
    ⟨fun w hw ↦ (hmem hw).imp_right hy,
      fun e he ↦ (hsubs e (by simpa using he)).imp (·.1) (·.1)⟩
  obtain ⟨hids, hfresh⟩ := hI.arm_ids hxe hxn fun v hv ↦ (hev v hv).1
  refine ⟨by simpa using hids, by simpa using hfresh, by simpa using hnd,
    fun w hw e he hsid ↦ ?_, fun u ↦ ?_, fun w₁ h₁ w₂ h₂ h12 ↦ ?_, fun w hw u hu ↦ ?_,
    fun u v z hu hv ↦ hI.solo u v z (renewing_of_framed hfr hk hu) (renewing_of_framed hfr hk hv)⟩
  · rcases hsubs e (by simpa using he) with ⟨he, hne⟩ | ⟨h1, h2⟩ <;> rcases hmem hw with hw | hw
    · exact hI.single w hw e he hsid
    · exact absurd (hsid.symm.trans (hy hw)) hne
    · exact absurd (hsid.trans h1) (hevs w hw)
    · simp [h2, hw, armedId]
  · by_cases hu : u = t
    · subst hu; simpa using hnew (x.arm ev)
    · rw [hfr.other hu]; exact (hI.threads u).grow hgrow (hfly u hu)
  · rcases hmem h₁ with h₁ | h₁ <;> rcases hmem h₂ with h₂ | h₂
    · exact hI.one w₁ h₁ w₂ h₂ h12
    · exact absurd (h12.trans (hy h₂)) (hevs w₁ h₁)
    · exact absurd (h12.symm.trans (hy h₁)) (hevs w₂ h₂)
    · exact Option.some.inj (h₁.symm.trans h₂)
  · by_cases hut : u = t
    · subst hut; exact hp _ (by simpa using hu)
    · rw [hfr.other hut] at hu
      rcases hmem hw with hw | hw
      · exact hI.idle w hw u hu
      · exact hfly u hut (hy hw ▸ hu)

theorem timerInv_recordSubscription (cfg : Config) (i : Input) {url : String} {timeOut : Int}
    {r : SubscribeResult} (hI : TimerInv s) (hfi : IssueOk s (s.threads t))
    (hp : s.threads t = .subscribeRecord h url timeOut r) :
    TimerInv (recordSubscription cfg i t h url timeOut r s) := by
  unfold recordSubscription
  cases r with
  | error c => exact hI.setProc rfl rfl rfl rfl rfl rfl trivial fun _ h ↦ False.elim h
  | ok sid granted =>
    rw [hp] at hfi
    obtain ⟨hsub, hevs, hfly⟩ := hfi
    dsimp only
    split
    · refine hI.record rfl rfl rfl rfl rfl (fun e he ↦ ?_)
        (scheduleGenaAutoRenew_armed cfg i.schedule h granted ⟨-1, sid, url⟩ _) hevs
        (List.nodup_cons.mpr ⟨hsub, hI.nodup⟩) (fun u _ ↦ hfly u) (fun _ ↦ trivial)
        fun _ h ↦ False.elim h
      rcases List.mem_cons.mp he with rfl | he
      · exact .inr ⟨rfl, rfl⟩
      · exact .inl ⟨he, fun h' ↦ hsub ((show e.sid = sid from h') ▸ List.mem_map_of_mem _ he)⟩
    · exact hI.setProc rfl rfl rfl rfl rfl rfl trivial fun _ h ↦ False.elim h

theorem TimerInv.dropSid {y : String} {p : Proc} (hI : TimerInv s)
    (hnew : ThreadOk { s with subs := removeSid s.subs y } p)
    (hk : ∀ z, Renewing z p → Renewing z (s.threads t)) :
    TimerInv ({ s with subs := removeSid s.subs y }.setProc t p) :=
  hI.of_shrink (framed_setProc p rfl rfl rfl)
    ⟨List.Sublist.refl _, fun e he ↦ .inl (mem_removeSid.mp (by simpa using he)).1, rfl,
      (List.filter_sublist _).map _⟩ (by simpa using hnew) (by simpa using hk)

theorem nodup_sid_rename {subs : List ClientSubscription} {sid newSid : String}
    {f : ClientSubscription → ClientSubscription} (hnd : (subs.map (·.sid)).Nodup)
    (hnew : newSid = sid ∨ newSid ∉ subs.map (·.sid)) (hf : ∀ e, (f e).sid = newSid) :
    ((subs.map fun e ↦ if e.sid = sid then f e else e).map (·.sid)).Nodup := by
  rw [List.map_map]
  refine (List.Nodup.of_map _ hnd).map_on fun a ha b hb hab ↦ ?_
  have key : ∀ a ∈ subs, ∀ b ∈ subs, a.sid = sid → b.sid ≠ sid → newSid ≠ b.sid := by
    intro a _ b hb _ hbx h'
    rcases hnew with rfl | hn
    · exact hbx h'.symm
    · exact hn (h' ▸ List.mem_map_of_mem _ hb)
  by_cases hax : a.sid = sid <;> by_cases hbx : b.sid = sid <;>
    simp only [Function.comp_apply, hax, hbx, if_true, if_false, hf] at hab
  · exact List.inj_on_of_nodup_map hnd ha hb (hax.trans hbx.symm)
  · exact absurd hab (key a ha b hb hax hbx)
  · exact absurd hab.symm (key b hb a ha hbx hax)
  · exact List.inj_on_of_nodup_map hnd ha hb hab

theorem mem_of_mem_kept {c : Prop} [Decidable c] {L : List ClientSubscription} {y : String}
    {e : ClientSubscription} (he : e ∈ if c then L else removeSid L y) : e ∈ L := by
  split at he
  · exact he
  · exact (mem_removeSid.mp he).1

theorem cancelRenew_of_unarmed {copy : ClientSubscription} (h : copy.renewEventId = -1) (x : Gena) :
    x.cancelRenew copy = x := by
  simp [Gena.cancelRenew, h]

theorem timerInv_renewRecord (cfg : Config) (i : Input) {sid : String} {timeOut : Int}
    {copy : ClientSubscription} {r : SubscribeResult} {job : Option RenewEvent} (hI : TimerInv s)
    (hfi : IssueOk s (s.threads t)) (hp : s.threads t = .renewRecord h sid timeOut copy r job) :
    TimerInv (renewRecord cfg i t h sid timeOut copy r job s) := by
  have hold := hI.threads t
  rw [hp] at hold
  obtain ⟨hcopy, hdet⟩ := hold
  have hk : Renewing sid (s.threads t) := by rw [hp]; exact rfl
  unfold renewRecord
  dsimp only
  split
  · cases r with
    | error c =>
      rw [cancelRenew_of_unarmed hcopy]
      exact hI.dropSid (threadOk_renewDone ..) fun _ h ↦ absurd h renewDone_renewing
    | ok newSid granted =>
      rw [hp] at hfi
      dsimp only
      split
      · rw [cancelRenew_of_unarmed hcopy]
        exact hI.finish
      · rename_i e hf
        rw [cancelRenew_of_unarmed hcopy]
        have hfly : ∀ u, u ≠ t → ¬ Renewing newSid (s.threads u) := by
          rcases hfi with rfl | ⟨-, -, hfly⟩
          · exact fun u hu hin ↦ hu (hI.solo u t _ hin hk)
          · exact fun u _ ↦ hfly u
        have hold : ∀ e ∈ s.subs, e.sid ≠ sid → e.sid ≠ newSid := fun e he hne h' ↦ by
          rcases hfi with rfl | ⟨hsub, -, -⟩
          · exact hne h'
          · exact hsub (h' ▸ List.mem_map_of_mem _ he)
        have hevs : ∀ w ∈ s.events, w.sub.sid ≠ newSid := fun w hw ↦ by
          rcases hfi with rfl | ⟨-, hevs, -⟩
          · exact hdet.1 w hw
          · exact hevs w hw
        refine hI.record rfl rfl rfl rfl rfl (fun e' he' ↦ ?_)
          (scheduleGenaAutoRenew_armed cfg i.schedule h granted { e with sid := newSid } _) hevs
          ?_ hfly (fun _ ↦ threadOk_renewDone ..) fun _ h ↦ absurd h renewDone_renewing
        · have he' := mem_of_mem_kept he'
          rw [updateSid_eq_map hI.nodup] at he'
          obtain ⟨e0, he0, rfl⟩ := List.mem_map.mp he'
          by_cases h0 : e0.sid = sid
          · simp [h0, hdet.2 e0 he0 h0]
          · simp [h0, he0, hold e0 he0 h0]
        · have hnew := (show newSid = sid ∨ Unknown s newSid from hfi).imp_right (·.1)
          dsimp only
          rw [updateSid_eq_map hI.nodup]
          split
          · exact nodup_sid_rename hI.nodup hnew fun _ ↦ rfl
          · exact List.Nodup.sublist ((List.filter_sublist _).map _)
              (nodup_sid_rename hI.nodup hnew fun _ ↦ rfl)
  · exact hI.finish

theorem shrink_cancelRenew (copy : ClientSubscription) (t : Nat) (p : Proc) :
    Shrink s ((s.cancelRenew copy).setProc t p) := by
  refine ⟨?_, fun e he ↦ .inl (by simpa using he), by simp, by simp⟩
  simp only [setProc_events, Gena.cancelRenew]
  split
  · exact List.filter_sublist _
  · exact List.Sublist.refl _

theorem TimerInv.cancel {copy : ClientSubscription} {p : Proc} (hI : TimerInv s)
    (hnew : ∀ z, ThreadOk z p) (hp : ∀ z, ¬ Renewing z p) :
    TimerInv ((s.cancelRenew copy).setProc t p) :=
  hI.of_shrink (framed_setProc p (by simp) (by simp) (by simp)) (shrink_cancelRenew copy t p)
    (by simpa using hnew _) fun z hz ↦ absurd (by simpa using hz) (hp z)

theorem timerInv_stepProc {cfg : Config} {i : Input} (hI : TimerInv s) (hfi : FreshIssue s)
    (hnu : NoUserRenew s) (hs : stepProc cfg i t s = some s') : TimerInv s' := by
  have neutral : ∀ {x : Gena} {p : Proc}, x.threads = s.threads → x.spawned = s.spawned →
      x.client = s.client → x.subs = s.subs → x.events = s.events →
      x.nextEventId = s.nextEventId → ThreadOk x p → (∀ z, ¬ Renewing z p) →
      TimerInv (x.setProc t p) := fun hx hsp hc hs he hn hnew hp ↦
    hI.setProc hx hsp hc hs he hn hnew fun z hz ↦ absurd hz (hp z)
  cases hp : s.threads t
  case subscribeRecord h url timeOut r =>
    simp only [stepProc, hp] at hs
    split at hs <;> cases hs
    exact timerInv_recordSubscription cfg i hI (hfi t) hp
  case renewEntry h sid timeOut job =>
    simp only [stepProc, hp] at hs
    split at hs <;> cases hs
    exact timerInv_renewFind hI hnu hp
  case renewRequest h sid timeOut copy job =>
    simp only [stepProc, hp, Option.some.injEq] at hs
    subst hs
    have hold := hI.threads t
    rw [hp] at hold
    exact hI.setProc rfl rfl rfl rfl rfl rfl hold fun _ hz ↦ by rw [hp]; exact hz
  case renewRecord h sid timeOut copy r job =>
    simp only [stepProc, hp] at hs
    split at hs <;> cases hs
    exact timerInv_renewRecord cfg i hI (hfi t) hp
  case unsubscribeRequest h sid copy =>
    simp only [stepProc, hp, Option.some.injEq] at hs
    subst hs
    exact hI.cancel (fun _ ↦ trivial) fun _ h ↦ False.elim h
  case unsubscribeRemove h sid =>
    simp only [stepProc, hp] at hs
    repeat' split at hs
    all_goals cases hs
    · exact hI.dropSid trivial fun _ h ↦ False.elim h
    · exact neutral rfl rfl rfl rfl rfl rfl trivial fun _ h ↦ h
  case unregisterLoop h =>
    simp only [stepProc, hp] at hs
    repeat' split at hs
    all_goals cases hs
    · rename_i hl
      exact neutral rfl rfl rfl hl.symm rfl rfl trivial fun _ h ↦ h
    · exact hI.dropSid trivial fun _ h ↦ False.elim h
    · exact neutral rfl rfl rfl rfl rfl rfl trivial fun _ h ↦ h
  case unregisterRequest h copy =>
    simp only [stepProc, hp, Option.some.injEq] at hs
    subst hs
    exact hI.cancel (fun _ ↦ trivial) fun _ h ↦ False.elim h
  case jobEntry ev =>
    simp only [stepProc, hp] at hs
    split at hs <;> cases hs
    · exact neutral rfl rfl rfl rfl rfl rfl trivial fun _ h ↦ h
    · exact hI.setProc rfl rfl rfl rfl rfl rfl trivial fun _ hz ↦ by rw [hp]; exact hz
  all_goals
    simp only [stepProc, hp] at hs
    repeat' split at hs
    all_goals cases hs
    all_goals exact neutral rfl rfl rfl rfl rfl rfl trivial fun _ h ↦ h

end Steps

section Run

variable {s : Gena}

theorem TimerInv.spawn {p : Proc} (hI : TimerInv s) (hp : ∀ z, ThreadOk z p)
    (hr : ∀ z, Renewing z p → (∀ ev ∈ s.events, ev.sub.sid ≠ z) ∧ ∀ u, ¬ Renewing z (s.threads u)) :
    TimerInv (s.spawn p) := by
  have hth : ∀ u, u ≠ s.spawned → (s.spawn p).threads u = s.threads u := fun u hu ↦ by
    simp [Gena.spawn, Function.update_noteq hu]
  have hnew : (s.spawn p).threads s.spawned = p := by simp [Gena.spawn]
  refine ⟨hI.ids, hI.fresh, hI.nodup, hI.single, fun u ↦ ?_, hI.one, fun ev hev u hu ↦ ?_,
    fun u v z hu hv ↦ ?_⟩
  · by_cases hu : u = s.spawned
    · rw [hu, hnew]; exact hp _
    · rw [hth u hu]; exact (hI.threads u).shrink (shrink_of_eq rfl rfl rfl)
  · by_cases hu' : u = s.spawned
    · rw [hu', hnew] at hu; exact (hr _ hu).1 ev hev rfl
    · rw [hth u hu'] at hu; exact hI.idle ev hev u hu
  · by_cases hus : u = s.spawned <;> by_cases hvs : v = s.spawned
    · rw [hus, hvs]
    · rw [hus, hnew] at hu; rw [hth v hvs] at hv; exact absurd hv ((hr z hu).2 v)
    · rw [hvs, hnew] at hv; rw [hth u hus] at hu; exact absurd hu ((hr z hv).2 u)
    · rw [hth u hus] at hu; rw [hth v hvs] at hv; exact hI.solo u v z hu hv

theorem TimerInv.fire {ev : RenewEvent} (hI : TimerInv s) (hev : ev ∈ s.events) :
    TimerInv ({ s with events := s.events.erase ev }.spawn (.jobEntry ev)) := by
  have hsub : (s.events.erase ev).Sublist s.events := List.erase_sublist _ _
  have hsh : Shrink s { s with events := s.events.erase ev } :=
    ⟨hsub, fun e he ↦ .inl he, rfl, List.Sublist.refl _⟩
  have hx : TimerInv { s with events := s.events.erase ev } :=
    hI.of_shrink (t := 0) ⟨(Function.update_eq_self _ _).symm, rfl, rfl⟩ hsh
      ((hI.threads 0).shrink hsh) fun _ h ↦ h
  refine hx.spawn (p := .jobEntry ev) (fun _ ↦ trivial) fun z (hz : ev.sub.sid = z) ↦
    ⟨fun w hw hwz ↦ ?_, fun u hu ↦ hI.idle ev hev u (hz ▸ hu)⟩
  obtain rfl := hI.one ev hev w (hsub.subset hw) (hz.trans hwz.symm)
  exact (hI.ids.of_map _).not_mem_erase hw

theorem timerInv_step {cfg : Config} {s' : Gena} (hI : TimerInv s) (hfi : FreshIssue s)
    (hnu : NoUserRenew s) (h : Step cfg s s') : TimerInv s' := by
  cases h with
  | call c => exact hI.spawn (fun _ ↦ by cases c <;> trivial) (by cases c <;> exact fun _ h ↦ h.elim)
  | fire ev hev => exact hI.fire hev
  | run _ t i hs => exact timerInv_stepProc hI hfi hnu hs

def settled : Proc → Bool
  | .subscribeRecord _ _ _ (.ok _ _) | .renewEntry _ _ _ none => false
  | .renewRecord _ x _ _ (.ok sid _) _ => sid == x
  | _ => true

theorem issueOk_of_settled {s : Gena} {p : Proc} (hp : settled p) :
    IssueOk s p ∧ ∀ h sid timeOut, p ≠ .renewEntry h sid timeOut none := by
  cases p
  case subscribeRecord h url timeOut r => cases r <;> simp_all [settled, IssueOk]
  case renewEntry h sid timeOut job => cases job <;> simp_all [settled, IssueOk]
  case renewRecord h sid timeOut copy r job => cases r <;> simp_all [settled, IssueOk]
  all_goals simp [IssueOk]

theorem hyps_of_settled {s : Gena} (hL : LockInv s)
    (h : (List.range s.spawned).all fun t ↦ settled (s.threads t)) :
    FreshIssue s ∧ NoUserRenew s := by
  have hall : ∀ t, settled (s.threads t) := fun t ↦ by
    by_cases ht : t < s.spawned
    · exact List.all_eq_true.mp h t (List.mem_range.mpr ht)
    · rw [hL.fresh t (by omega)]; rfl
  exact ⟨fun t ↦ (issueOk_of_settled (hall t)).1,
    fun t ↦ (issueOk_of_settled (s := s) (hall t)).2⟩

/-- When only the auto-renew job renews and the publisher issues unknown SIDs, no SID ever has two
pending timers, and the timer of an entry's SID is the one its `renewEventId` names. -/
theorem auto_renewal_timer_single {cfg : Config} (r : Run cfg) {client : Option Nat}
    (h0 : r.state 0 = Gena.initial client)
    (hrun : ∀ k, FreshIssue (r.state k) ∧ NoUserRenew (r.state k)) (k : Nat) :
    (∀ ev₁ ∈ (r.state k).events, ∀ ev₂ ∈ (r.state k).events,
      ev₁.sub.sid = ev₂.sub.sid → ev₁ = ev₂) ∧
    ∀ ev ∈ (r.state k).events, ∀ e ∈ (r.state k).subs, ev.sub.sid = e.sid →
      (ev.eventId : Int) = e.renewEventId := by
  have hinv : ∀ k, TimerInv (r.state k) := by
    intro k
    induction k with
    | zero => rw [h0]; exact timerInv_initial client
    | succ k ih =>
      rcases r.step k with hs | hs
      · exact timerInv_step ih (hrun k).1 (hrun k).2 hs
      · rw [hs]; exact ih
  exact ⟨(hinv k).one, (hinv k).single⟩

def autoRenewNotify : List Move :=
  let url := "http://10.0.0.5:49152/evt"
  let answer : Input := ⟨.response 200 [("sid", "uuid:x"), ("timeout", "Second-1800")], .success⟩
  let notify : Transaction :=
    { raceNotify with
      headers := [("sid", "uuid:x"), ("seq", "1"), ("nt", "upnp:event"), ("nts", "upnp:propchange")] }
  [.call (.subscribe 1 url 1800), .run 0 answer, .run 0 answer, .run 0 answer, .run 0 answer,
    .fire 0, .call (.notify notify), .run 1 answer, .run 2 answer, .run 1 answer, .run 2 answer,
    .run 1 answer, .run 1 answer, .run 2 answer]

def autoRenewRun : Run sampleConfig :=
  Run.ofExec sampleConfig autoRenewNotify (Gena.initial (some 1)) ⟨some 1, .refl⟩ rfl

theorem auto_renewal_timer_single_notify :
    autoRenewRun.state 0 = Gena.initial (some 1) ∧
    (∀ k, FreshIssue (autoRenewRun.state k) ∧ NoUserRenew (autoRenewRun.state k)) ∧
    (∀ ev₁ ∈ (autoRenewRun.state 14).events, ∀ ev₂ ∈ (autoRenewRun.state 14).events,
      ev₁.sub.sid = ev₂.sub.sid → ev₁ = ev₂) ∧
    ∀ ev ∈ (autoRenewRun.state 14).events, ∀ e ∈ (autoRenewRun.state 14).subs,
      ev.sub.sid = e.sid → (ev.eventId : Int) = e.renewEventId := by
  have hrun : ∀ k, FreshIssue (autoRenewRun.state k) ∧ NoUserRenew (autoRenewRun.state k) := by
    intro k
    have hL := lockInv_reachable (autoRenewRun.reachable k)
    by_cases h4 : k = 4
    · subst h4
      have h0 : (autoRenewRun.state 4).threads 0 =
          .subscribeRecord 1 "http://10.0.0.5:49152/evt" 1800 (.ok "uuid:x" 1800) := rfl
      have hidle : ∀ u, 0 < u → (autoRenewRun.state 4).threads u = .idle := fun u hu ↦
        hL.fresh u (by change 1 ≤ u; omega)
      refine ⟨fun t ↦ ?_, fun t h sid timeOut ↦ ?_⟩
      · rcases Nat.eq_zero_or_pos t with rfl | ht
        · rw [h0]
          refine ⟨by decide, by decide, fun u ↦ ?_⟩
          rcases Nat.eq_zero_or_pos u with rfl | hu
          · rw [h0]; exact id
          · rw [hidle u hu]; exact id
        · rw [hidle t ht]; trivial
      · rcases Nat.eq_zero_or_pos t with rfl | ht
        · rw [h0]; exact nofun
        · rw [hidle t ht]; exact nofun
    · apply hyps_of_settled hL
      rcases Nat.lt_or_ge k 14 with hk | hk
      · have hall : ((List.range 14).filter (· ≠ 4)).all (fun k ↦
            (List.range (autoRenewRun.state k).spawned).all fun t ↦
              settled ((autoRenewRun.state k).threads t)) := rfl
        exact List.all_eq_true.mp hall k
          (List.mem_filter.mpr ⟨List.mem_range.mpr hk, by simpa using h4⟩)
      · rw [autoRenewRun, Run.ofExec_state_of_le hk]; rfl
  exact ⟨rfl, hrun, auto_renewal_timer_single autoRenewRun rfl hrun 14⟩

end Run

section Counterexamples

/-- The auto-renew timer of `uuid:x` fires while the user renews `uuid:x`: the user's renewal
and the job both pass their first critical section before either records its answer. -/
def renewRace : List Move :=
  let url := "http://10.0.0.5:49152/evt"
  let answer : Input := ⟨.response 200 [("sid", "uuid:x"), ("timeout", "Second-1800")], .success⟩
  [.call (.subscribe 1 url 1800), .run 0 answer, .run 0 answer, .run 0 answer, .run 0 answer,
    .fire 0, .call (.renew 1 "uuid:x" 1800), .run 2 answer, .run 1 answer, .run 1 answer,
    .run 2 answer, .run 2 answer, .run 1 answer, .run 1 answer]

/-- Each renewal arms a timer for `uuid:x` and the entry keeps the id of the second: two timers
target the entry, and the first one is orphaned. -/
theorem renewal_race_orphans_timer :
    ∃ s, exec sampleConfig renewRace (Gena.initial (some 1)) = some s ∧
      ∃ e ∈ s.subs, (timersFor s 1 e.sid).length = 2 ∧
        ∃ ev ∈ timersFor s 1 e.sid, (ev.eventId : Int) ≠ e.renewEventId :=
  ⟨_, rfl, _, .head _, rfl, _, .head _, by decide⟩

end Counterexamples

end Npupnp.Gena.Timers
