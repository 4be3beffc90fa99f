import Mathlib.Data.List.Nodup
import Npupnp.Gena.Race

namespace Npupnp.Gena.Sequential

open Basic Machine Race

def runThread (cfg : Config) (t : Nat) (i : Input) : Nat → Gena → Gena
  | 0, s => s
  | n + 1, s =>
    match stepProc cfg i t s with
    | some s' => runThread cfg t i n s'
    | none => s

theorem runThread_of_none {cfg : Config} {t : Nat} {i : Input} {s : Gena}
    (h : stepProc cfg i t s = none) (n : Nat) : runThread cfg t i n s = s := by
  cases n <;> simp [runThread, h]

theorem runThread_of_terminal {cfg : Config} {t : Nat} {i : Input} {s : Gena}
    (h : terminal (s.threads t)) (n : Nat) : runThread cfg t i n s = s :=
  runThread_of_none (stepProc_of_terminal h) n

theorem runThread_add {cfg : Config} {t : Nat} {i : Input} (m n : Nat) (s : Gena) :
    runThread cfg t i (m + n) s = runThread cfg t i n (runThread cfg t i m s) := by
  induction m generalizing s with
  | zero => simp [runThread]
  | succ m ih =>
    rw [Nat.succ_add]
    cases hs : stepProc cfg i t s with
    | none => simp [runThread, hs, runThread_of_none hs]
    | some s' => simp [runThread, hs, ih]

theorem runThread_step {cfg : Config} {t : Nat} {i : Input} {n : Nat} {s s' : Gena}
    (h : stepProc cfg i t s = some s') : runThread cfg t i (n + 1) s = runThread cfg t i n s' := by
  simp [runThread, h]

/-- The operations whose effect on the table the spec prescribes. -/
inductive Op
  | subscribe (h : Nat) (url : String) (timeOut : Int)
  | renew (h : Nat) (sid : String) (timeOut : Int)
  | unsubscribe (h : Nat) (sid : String)
  | unregister (h : Nat)
  | job (ev : RenewEvent)

def Op.start (s : Gena) : Op → Gena
  | .subscribe h url timeOut => s.spawn (.subscribeEntry h url timeOut)
  | .renew h sid timeOut => s.spawn (.renewEntry h sid timeOut none)
  | .unsubscribe h sid => s.spawn (.unsubscribeEntry h sid)
  | .unregister h => s.spawn (.unregisterLoop h)
  | .job ev => { s with events := s.events.erase ev }.spawn (.jobEntry ev)

def codeOf : Proc → Option Code
  | .subscribed rc .. | .renewed rc _ | .returned rc => some rc
  | _ => none

structure SpecEntry where
  sid : String
  url : String
  timed : Bool
  deriving DecidableEq, Repr

def hasTimer (events : List RenewEvent) (e : ClientSubscription) : Bool :=
  events.any (fun ev ↦ (ev.eventId : Int) = e.renewEventId)

def view (s : Gena) : List SpecEntry :=
  s.subs.map (fun e ↦ ⟨e.sid, e.eventURL, hasTimer s.events e⟩)

/-- The table of client `h`: distinct SIDs, every pending timer the timer of one entry, for
its SID, and timer ids fresh from `nextEventId` on. -/
structure TableInv (h : Nat) (s : Gena) : Prop where
  client : s.client = some h
  nodup : (s.subs.map (·.sid)).Nodup
  owned : ∀ ev ∈ s.events, ∃ e ∈ s.subs, (ev.eventId : Int) = e.renewEventId
  target : ∀ e ∈ s.subs, ∀ ev ∈ s.events, (ev.eventId : Int) = e.renewEventId →
    ev.sub.sid = e.sid ∧ ev.handle = h
  ids : (s.events.map (·.eventId)).Nodup
  fresh : ∀ ev ∈ s.events, ev.eventId < s.nextEventId
  freshSubs : ∀ e ∈ s.subs, e.renewEventId < s.nextEventId

structure Consistent (h : Nat) (s : Gena) extends TableInv h s : Prop where
  readers : s.readers = []
  owner : s.subscribeOwner = none

def specRenew (cfg : Config) (x : String) (r : SubscribeResult) (tbl : List SpecEntry) :
    List SpecEntry × Code :=
  match r with
  | .error c => (tbl.filter (·.sid ≠ x), c)
  | .ok sid granted =>
    (tbl.map (fun e ↦ if e.sid = x then ⟨sid, e.url, granted ≠ cfg.infinite⟩ else e), .success)

/-- The table and return code the spec (§4.3, §4.5) prescribes for one operation of a
client that registered `client`, the publisher answering its SUBSCRIBE with `r`. -/
def specOp (cfg : Config) (client : Option Nat) (r : SubscribeResult) (tbl : List SpecEntry) :
    Op → List SpecEntry × Option Code
  | .subscribe h url _ =>
    if client ≠ some h then (tbl, some .badHandle)
    else
      match r with
      | .error c => (tbl, some c)
      | .ok sid granted => (tbl ++ [⟨sid, url, granted ≠ cfg.infinite⟩], some .success)
  | .renew h x _ =>
    if client ≠ some h then (tbl, some .badHandle)
    else if tbl.all (·.sid ≠ x) then (tbl, some .badSid)
    else ((specRenew cfg x r tbl).1, some (specRenew cfg x r tbl).2)
  | .unsubscribe h x =>
    if client ≠ some h then (tbl, some .badHandle)
    else if tbl.all (·.sid ≠ x) then (tbl, some .badSid)
    else (tbl.filter (·.sid ≠ x), some .success)
  | .unregister h => if client ≠ some h then (tbl, some .badHandle) else ([], some .success)
  | .job ev =>
    if cfg.autoRenewTime = 0 then
      (tbl.map (fun e ↦ if e.sid = ev.sub.sid then { e with timed := false } else e), none)
    else ((specRenew cfg ev.sub.sid r tbl).1, none)

def Op.freshSid (s : Gena) (sid : String) : Op → Prop
  | .subscribe .. => sid ∉ s.subs.map (·.sid)
  | .renew _ x _ => sid = x ∨ sid ∉ s.subs.map (·.sid)
  | .job ev => sid = ev.sub.sid ∨ sid ∉ s.subs.map (·.sid)
  | _ => True

def Op.ready (s : Gena) : Op → Prop
  | .job ev => ev ∈ s.events
  | _ => True

section Table

variable {h : Nat} {s : Gena}

@[simp] theorem view_setProc (t : Nat) (p : Proc) : view (s.setProc t p) = view s := rfl

theorem TableInv.setProc (t : Nat) (p : Proc) (hc : TableInv h s) : TableInv h (s.setProc t p) :=
  ⟨hc.client, hc.nodup, hc.owned, hc.target, hc.ids, hc.fresh, hc.freshSubs⟩

theorem scheduleGenaAutoRenew_success (cfg : Config) (h : Nat) (timeOut : Int)
    (sub : ClientSubscription) (n : Nat) :
    (scheduleGenaAutoRenew cfg .success h timeOut sub n).2 = .success ∧
      (scheduleGenaAutoRenew cfg .success h timeOut sub n).1.isSome = decide (timeOut ≠ cfg.infinite) ∧
      ∀ ev ∈ (scheduleGenaAutoRenew cfg .success h timeOut sub n).1,
        ev.eventId = n ∧ ev.sub.sid = sub.sid ∧ ev.handle = h := by
  unfold scheduleGenaAutoRenew
  split <;> simp_all

theorem hasTimer_append_fresh {events : List RenewEvent} {ev : RenewEvent}
    {e : ClientSubscription} (hne : (ev.eventId : Int) ≠ e.renewEventId) :
    hasTimer (events ++ [ev]) e = hasTimer events e := by
  simp [hasTimer, hne]

theorem TableInv.push {ev : Option RenewEvent} {sid : String} (url : String) (hc : TableInv h s)
    (hsid : sid ∉ s.subs.map (·.sid))
    (hev : ∀ e ∈ ev, e.eventId = s.nextEventId ∧ e.sub.sid = sid ∧ e.handle = h)
    (o : Option Nat) :
    let s' := { s with subscribeOwner := o, subs := ⟨armedId (-1) ev, sid, url⟩ :: s.subs }.arm ev
    TableInv h s' ∧ view s' = ⟨sid, url, ev.isSome⟩ :: view s := by
  cases ev with
  | none =>
    refine ⟨⟨hc.client, ?_, fun e he ↦ ?_, fun e he ev hev heq ↦ ?_, hc.ids, hc.fresh, ?_⟩, ?_⟩
    · exact List.nodup_cons.mpr ⟨hsid, hc.nodup⟩
    · obtain ⟨e', he', h'⟩ := hc.owned e he
      exact ⟨e', List.mem_cons_of_mem _ he', h'⟩
    · rcases List.mem_cons.mp he with rfl | he
      · simp [armedId] at heq
      · exact hc.target e he ev hev heq
    · intro e he
      rcases List.mem_cons.mp he with rfl | he
      · simp [armedId]; omega
      · exact hc.freshSubs e he
    · simp only [view, Gena.arm, List.map_cons, Option.isSome_none, List.cons.injEq,
        SpecEntry.mk.injEq, true_and, and_true]
      simp only [hasTimer, armedId, List.any_eq_false, decide_eq_true_eq]
      intro ev _ heq; omega
  | some ev =>
    obtain ⟨hid, hsid', hh⟩ := hev ev rfl
    have hold : ∀ e ∈ s.subs, (ev.eventId : Int) ≠ e.renewEventId := fun e he heq ↦ by
      have := hc.freshSubs e he; omega
    refine ⟨⟨hc.client, ?_, fun e he ↦ ?_, fun e he e' he' heq ↦ ?_, ?_, fun e he ↦ ?_,
      fun e he ↦ ?_⟩, ?_⟩
    · exact List.nodup_cons.mpr ⟨hsid, hc.nodup⟩
    · simp only [arm_events, Option.toList_some, List.mem_append, List.mem_singleton] at he
      rcases he with he | rfl
      · obtain ⟨e', he', h'⟩ := hc.owned e he
        exact ⟨e', List.mem_cons_of_mem _ (by simpa using he'), h'⟩
      · exact ⟨_, List.mem_cons_self _ _, rfl⟩
    · simp only [arm_events, arm_subs, Option.toList_some, List.mem_append, List.mem_singleton,
        List.mem_cons, List.mem_nil_iff, or_false] at he he'
      rcases he with rfl | he <;> rcases he' with he' | rfl
      · have := hc.fresh e' he'; simp [armedId] at heq; omega
      · exact ⟨hsid', hh⟩
      · exact hc.target e he e' he' heq
      · exact absurd heq (hold e he)
    · simp only [arm_events, Option.toList_some, List.map_append, List.map_singleton]
      refine hc.ids.append (List.nodup_singleton _) ?_
      simp only [List.disjoint_singleton, List.mem_map, not_exists, not_and]
      intro e he heq; have := hc.fresh e he; omega
    · simp only [arm_events, Option.toList_some, List.mem_append, List.mem_singleton] at he
      simp only [Gena.arm]
      rcases he with he | rfl
      · have := hc.fresh e he; omega
      · omega
    · simp only [arm_subs, List.mem_cons] at he
      simp only [Gena.arm]
      rcases he with rfl | he
      · simp [armedId]; omega
      · have := hc.freshSubs e he; omega
    · simp only [view, arm_subs, arm_events, Option.toList_some, List.map_cons, Option.isSome_some]
      refine congrArg₂ _ (by simp [hasTimer, armedId]) (List.map_congr_left fun e he ↦ ?_)
      rw [hasTimer_append_fresh (hold e he)]

theorem sid_inj {subs : List ClientSubscription} (hnd : (subs.map (·.sid)).Nodup)
    {e₁ e₂ : ClientSubscription} (h₁ : e₁ ∈ subs) (h₂ : e₂ ∈ subs) (h : e₁.sid = e₂.sid) :
    e₁ = e₂ :=
  List.inj_on_of_nodup_map hnd h₁ h₂ h

theorem TableInv.hasTimer_other {e e' : ClientSubscription} (hc : TableInv h s) (he : e ∈ s.subs)
    (he' : e' ∈ s.subs) (hne : e' ≠ e) (hid : e'.renewEventId = e.renewEventId) :
    hasTimer s.events e' = false := by
  simp only [hasTimer, List.any_eq_false, decide_eq_true_eq]
  intro ev hev heq
  exact hne (sid_inj hc.nodup he' he
    (((hc.target e' he' ev hev heq).1).symm.trans (hc.target e he ev hev (heq.trans hid)).1))

theorem hasTimer_removeEvent_of_ne {events : List RenewEvent} {k : Int} {e : ClientSubscription}
    (hk : e.renewEventId ≠ k) : hasTimer (removeEvent events k) e = hasTimer events e := by
  unfold hasTimer removeEvent
  rw [List.any_filter]
  congr 1
  funext ev
  by_cases h : (ev.eventId : Int) = e.renewEventId <;> simp [h, hk]

theorem TableInv.detach {x : String} {e : ClientSubscription} (hc : TableInv h s)
    (hf : findSid s.subs x = some e) :
    let s' := { s with
      events := removeEvent s.events e.renewEventId
      subs := updateSid (fun e ↦ { e with renewEventId := -1 }) x s.subs }
    TableInv h s' ∧
      view s' = (view s).map (fun v ↦ if v.sid = x then { v with timed := false } else v) := by
  have he := findSid_mem hf
  have hex := findSid_sid hf
  have huniq : ∀ e' ∈ s.subs, e'.sid = x → e' = e := fun e' he' h' ↦
    sid_inj hc.nodup he' he (h'.trans hex.symm)
  simp only [updateSid_eq_map hc.nodup]
  refine ⟨⟨hc.client, ?_, fun ev hev ↦ ?_, fun e₁ he₁ ev hev heq ↦ ?_, ?_, fun ev hev ↦ ?_,
    fun e₁ he₁ ↦ ?_⟩, ?_⟩
  · simpa [List.map_map, Function.comp_def, apply_ite] using hc.nodup
  · obtain ⟨hev, hne⟩ := mem_removeEvent.mp hev
    obtain ⟨e', he', hid⟩ := hc.owned ev hev
    have hx : e'.sid ≠ x := fun h' ↦ hne (hid.trans (by rw [huniq e' he' h']))
    exact ⟨e', List.mem_map.mpr ⟨e', he', by simp [hx]⟩, hid⟩
  · obtain ⟨e', he', rfl⟩ := List.mem_map.mp he₁
    by_cases hx : e'.sid = x
    · simp [hx] at heq
    · simp only [hx, if_false] at heq ⊢
      exact hc.target e' he' ev (mem_removeEvent.mp hev).1 heq
  · exact (hc.ids.sublist ((List.filter_sublist _).map _))
  · exact hc.fresh ev (mem_removeEvent.mp hev).1
  · obtain ⟨e', he', rfl⟩ := List.mem_map.mp he₁
    by_cases hx : e'.sid = x
    · simp [hx]; omega
    · simpa [hx] using hc.freshSubs e' he'
  · simp only [view, List.map_map]
    refine List.map_congr_left fun e' he' ↦ ?_
    by_cases hx : e'.sid = x
    · simp [hx, hasTimer]
    · have hne : e' ≠ e := fun h' ↦ hx (h' ▸ hex)
      simp only [Function.comp_apply, hx, if_false, SpecEntry.mk.injEq, true_and]
      by_cases hid : e'.renewEventId = e.renewEventId
      · rw [hc.hasTimer_other he he' hne hid]
        simp only [hasTimer, List.any_eq_false, decide_eq_true_eq]
        exact fun ev hev heq ↦ (mem_removeEvent.mp hev).2 (heq.trans hid)
      · exact hasTimer_removeEvent_of_ne hid

theorem TableInv.dropSid {x : String} (hc : TableInv h s)
    (hno : ∀ e ∈ s.subs, e.sid = x → hasTimer s.events e = false) :
    TableInv h { s with subs := removeSid s.subs x } ∧
      view { s with subs := removeSid s.subs x } = (view s).filter (·.sid ≠ x) := by
  refine ⟨⟨hc.client, ?_, fun ev hev ↦ ?_, fun e he ↦ hc.target e (mem_removeSid.mp he).1, hc.ids,
    hc.fresh, fun e he ↦ hc.freshSubs e (mem_removeSid.mp he).1⟩, ?_⟩
  · exact hc.nodup.sublist ((List.filter_sublist _).map _)
  · obtain ⟨e, he, hid⟩ := hc.owned ev hev
    refine ⟨e, mem_removeSid.mpr ⟨he, fun hx ↦ ?_⟩, hid⟩
    have := hno e he hx
    simp only [hasTimer, List.any_eq_false, decide_eq_true_eq] at this
    exact this ev hev hid
  · simp [view, removeSid, List.filter_map, Function.comp_def]

theorem TableInv.rename {x newSid : String} {e : ClientSubscription} {ev : Option RenewEvent}
    (hc : TableInv h s) (hf : findSid s.subs x = some e) (hid : e.renewEventId = -1)
    (hnew : newSid = x ∨ newSid ∉ s.subs.map (·.sid))
    (hev : ∀ v ∈ ev, v.eventId = s.nextEventId ∧ v.sub.sid = newSid ∧ v.handle = h) :
    let s' := { s with
      subs := updateSid (fun e ↦ { e with sid := newSid, renewEventId := armedId e.renewEventId ev })
        x s.subs }.arm ev
    TableInv h s' ∧
      view s' = (view s).map (fun v ↦ if v.sid = x then ⟨newSid, v.url, ev.isSome⟩ else v) := by
  have he := findSid_mem hf
  have hex := findSid_sid hf
  have huniq : ∀ e' ∈ s.subs, e'.sid = x → e' = e := fun e' he' h' ↦
    sid_inj hc.nodup he' he (h'.trans hex.symm)
  have hnone : ∀ v ∈ s.events, (v.eventId : Int) ≠ e.renewEventId := fun v _ h' ↦ by omega
  simp only [updateSid_eq_map hc.nodup]
  set g := fun e' : ClientSubscription ↦ if e'.sid = x then
    { e' with sid := newSid, renewEventId := armedId e'.renewEventId ev } else e' with hg
  have hgx : ∀ e' ∈ s.subs, e'.sid ≠ x → g e' = e' := fun e' _ h' ↦ by simp [hg, h']
  have hge : g e = ⟨armedId (-1) ev, newSid, e.eventURL⟩ := by simp [hg, hex, hid]
  have hold : ∀ e' ∈ s.subs, e'.sid ≠ x → ∀ v ∈ ev, (v.eventId : Int) ≠ e'.renewEventId :=
    fun e' he' _ v hv h' ↦ by have := hc.freshSubs e' he'; have := (hev v hv).1; omega
  have hevs : ∀ v ∈ s.events, ∀ w ∈ ev, v.eventId ≠ w.eventId :=
    fun v hv w hw h' ↦ by have := hc.fresh v hv; have := (hev w hw).1; omega
  refine ⟨⟨by simp [hc.client], ?_, fun v hv ↦ ?_, fun e₁ he₁ v hv heq ↦ ?_, ?_, fun v hv ↦ ?_,
    fun e₁ he₁ ↦ ?_⟩, ?_⟩
  · rw [arm_subs, List.map_map]
    refine (List.Nodup.of_map _ hc.nodup).map_on fun a ha b hb hab ↦ ?_
    by_cases hax : a.sid = x <;> by_cases hbx : b.sid = x
    · exact (huniq a ha hax).trans (huniq b hb hbx).symm
    · simp only [Function.comp_apply, hg, hax, hbx, if_true, if_false] at hab
      rcases hnew with rfl | hn
      · exact absurd hab.symm hbx
      · exact absurd (hab ▸ List.mem_map_of_mem _ hb) hn
    · simp only [Function.comp_apply, hg, hax, hbx, if_true, if_false] at hab
      rcases hnew with rfl | hn
      · exact absurd hab hax
      · exact absurd (hab ▸ List.mem_map_of_mem _ ha) hn
    · simpa [hg, hax, hbx] using sid_inj hc.nodup ha hb (by simpa [hg, hax, hbx] using hab)
  · rw [arm_subs]
    rcases mem_arm_events.1 hv with hv | rfl
    · obtain ⟨e', he', hid'⟩ := hc.owned v hv
      have hx : e'.sid ≠ x := fun h' ↦ hnone v hv (huniq e' he' h' ▸ hid')
      exact ⟨e', List.mem_map.mpr ⟨e', he', hgx e' he' hx⟩, hid'⟩
    · exact ⟨g e, List.mem_map_of_mem _ he, by simp [hge, armedId]⟩
  · rw [arm_subs] at he₁
    obtain ⟨e', he', rfl⟩ := List.mem_map.mp he₁
    by_cases hx : e'.sid = x
    · rw [huniq e' he' hx, hge] at heq ⊢
      rcases mem_arm_events.1 hv with hv | rfl
      · cases ev with
        | none => simp [armedId] at heq
        | some w => exact absurd (by simp only [armedId] at heq; omega) (hevs v hv w rfl)
      · exact (hev v rfl).2
    · rw [hgx e' he' hx] at heq ⊢
      rcases mem_arm_events.1 hv with hv | rfl
      · exact hc.target e' he' v hv heq
      · exact absurd heq (hold e' he' hx v rfl)
  · cases ev with
    | none => simpa [Gena.arm] using hc.ids
    | some w =>
      simp only [arm_events, Option.toList_some, List.map_append, List.map_singleton]
      refine hc.ids.append (List.nodup_singleton _) ?_
      simp only [List.disjoint_singleton, List.mem_map, not_exists, not_and]
      exact fun v hv h' ↦ hevs v hv w rfl h'
  · rcases mem_arm_events.1 hv with hv | rfl
    · have := hc.fresh v hv
      cases ev <;> simp only [Gena.arm] <;> omega
    · have := (hev v rfl).1
      simp only [Gena.arm]; omega
  · rw [arm_subs] at he₁
    obtain ⟨e', he', rfl⟩ := List.mem_map.mp he₁
    by_cases hx : e'.sid = x
    · rw [huniq e' he' hx, hge]
      cases ev with
      | none => simp [armedId, Gena.arm]; omega
      | some w => simp only [armedId, Gena.arm]; have := (hev w rfl).1; omega
    · rw [hgx e' he' hx]
      have := hc.freshSubs e' he'
      cases ev <;> simp only [Gena.arm] <;> omega
  · simp only [view, arm_subs, arm_events, List.map_map]
    refine List.map_congr_left fun e' he' ↦ ?_
    by_cases hx : e'.sid = x
    · rw [huniq e' he' hx]
      simp only [Function.comp_apply, hge, hex, if_true]
      cases ev with
      | none =>
        simp only [hasTimer, armedId, Option.toList_none, List.append_nil, Option.isSome_none]
        simp only [SpecEntry.mk.injEq, true_and, List.any_eq_false, decide_eq_true_eq]
        exact fun v hv ↦ hid ▸ hnone v hv
      | some w => simp [hasTimer, armedId]
    · simp only [Function.comp_apply, hgx e' he' hx, hx, if_false]
      cases ev with
      | none => simp
      | some w => rw [Option.toList_some, hasTimer_append_fresh (hold e' he' hx w rfl)]

theorem cancelRenew_of_unarmed {copy : ClientSubscription} (h : copy.renewEventId = -1) :
    s.cancelRenew copy = s := by
  simp [Gena.cancelRenew, h]

theorem specRenew_detach (cfg : Config) (x : String) (r : SubscribeResult) (tbl : List SpecEntry) :
    (specRenew cfg x r (tbl.map fun v ↦ if v.sid = x then { v with timed := false } else v)).1 =
      (specRenew cfg x r tbl).1 := by
  cases r with
  | error c =>
    have hsid : ∀ v : SpecEntry,
        (if v.sid = x then { v with timed := false } else v).sid = v.sid := fun v ↦ by
      split <;> rfl
    simp only [specRenew, List.filter_map, Function.comp_def, hsid]
    refine (List.map_congr_left fun v hv ↦ ?_).trans (List.map_id _)
    have hv := List.of_mem_filter hv
    simp only [ne_eq, decide_eq_true_eq] at hv
    simp [hv]
  | ok sid g =>
    simp only [specRenew, List.map_map]
    refine List.map_congr_left fun v _ ↦ ?_
    by_cases hv : v.sid = x <;> simp [hv]

theorem renewRecord_detached (cfg : Config) (i : Input) (t : Nat) (timeOut : Int)
    (job : Option RenewEvent) {x : String} {e1 : ClientSubscription} {r : SubscribeResult}
    (hc : TableInv h s) (hf : findSid s.subs x = some e1) (he1 : e1.renewEventId = -1)
    (hsched : i.schedule = .success)
    (hfresh : ∀ sid g, r = .ok sid g → sid = x ∨ sid ∉ s.subs.map (·.sid)) :
    TableInv h (renewRecord cfg i t h x timeOut e1 r job s) ∧
      view (renewRecord cfg i t h x timeOut e1 r job s) = (specRenew cfg x r (view s)).1 ∧
      (∃ t', (renewRecord cfg i t h x timeOut e1 r job s).threads t =
        renewDone job (specRenew cfg x r (view s)).2 t') ∧
      (renewRecord cfg i t h x timeOut e1 r job s).readers = s.readers ∧
      (renewRecord cfg i t h x timeOut e1 r job s).subscribeOwner = s.subscribeOwner := by
  have he := findSid_mem hf
  have huniq : ∀ e' ∈ s.subs, e'.sid = x → e' = e1 := fun e' he' h' ↦
    sid_inj hc.nodup he' he (h'.trans (findSid_sid hf).symm)
  cases r with
  | error c =>
    have hno : ∀ e ∈ s.subs, e.sid = x → hasTimer s.events e = false := fun e he' hx ↦ by
      rw [huniq e he' hx]
      simp only [hasTimer, he1, List.any_eq_false, decide_eq_true_eq]
      intro v _ h'; omega
    obtain ⟨hinv, hview⟩ := hc.dropSid hno
    unfold renewRecord
    rw [if_pos hc.client]
    simp only [cancelRenew_of_unarmed he1]
    exact ⟨hinv.setProc .., by rw [view_setProc, hview]; rfl, ⟨timeOut, by simp [specRenew]⟩, rfl,
      rfl⟩
  | ok newSid granted =>
    obtain ⟨h2, hsome, hev⟩ :=
      scheduleGenaAutoRenew_success cfg h granted { e1 with sid := newSid } s.nextEventId
    obtain ⟨hinv, hview⟩ := hc.rename hf he1 (hfresh newSid granted rfl) hev
    unfold renewRecord
    rw [if_pos hc.client]
    simp only [hf, hsched, h2, if_true, cancelRenew_of_unarmed he1]
    refine ⟨hinv.setProc .., ?_, ⟨granted, by simp [specRenew]⟩, by simp, by simp⟩
    rw [view_setProc, hview, hsome]
    rfl

theorem TableInv.cancel {x : String} {e : ClientSubscription} (hc : TableInv h s)
    (he : e ∈ s.subs) (hex : e.sid = x) :
    TableInv h (s.cancelRenew e) ∧ hasTimer (s.cancelRenew e).events e = false ∧
      ∀ e' ∈ s.subs, e'.sid ≠ x → hasTimer (s.cancelRenew e).events e' = hasTimer s.events e' := by
  by_cases hid : e.renewEventId = -1
  · rw [cancelRenew_of_unarmed hid]
    refine ⟨hc, ?_, fun _ _ _ ↦ rfl⟩
    simp only [hasTimer, hid, List.any_eq_false, decide_eq_true_eq]
    intro v _ h'; omega
  · have hcan : s.cancelRenew e = { s with events := removeEvent s.events e.renewEventId } := by
      simp [Gena.cancelRenew, hid]
    rw [hcan]
    refine ⟨⟨hc.client, hc.nodup, fun v hv ↦ hc.owned v (mem_removeEvent.mp hv).1,
      fun e₁ he₁ v hv ↦ hc.target e₁ he₁ v (mem_removeEvent.mp hv).1,
      hc.ids.sublist ((List.filter_sublist _).map _),
      fun v hv ↦ hc.fresh v (mem_removeEvent.mp hv).1, hc.freshSubs⟩, ?_, fun e' he' hx ↦ ?_⟩
    · simp only [hasTimer, List.any_eq_false, decide_eq_true_eq]
      exact fun v hv h' ↦ (mem_removeEvent.mp hv).2 h'
    · have hne : e' ≠ e := fun h' ↦ hx (h' ▸ hex)
      by_cases hid' : e'.renewEventId = e.renewEventId
      · rw [hc.hasTimer_other he he' hne hid']
        simp only [hasTimer, List.any_eq_false, decide_eq_true_eq]
        exact fun v hv h' ↦ (mem_removeEvent.mp hv).2 (h'.trans hid')
      · exact hasTimer_removeEvent_of_ne hid'

theorem hasTimer_erase_of_ne {events : List RenewEvent} {ev : RenewEvent} {e : ClientSubscription}
    (hne : (ev.eventId : Int) ≠ e.renewEventId) : hasTimer (events.erase ev) e = hasTimer events e := by
  unfold hasTimer
  rw [Bool.eq_iff_iff]
  simp only [List.any_eq_true, decide_eq_true_eq]
  refine ⟨fun ⟨v, hv, h'⟩ ↦ ⟨v, List.mem_of_mem_erase hv, h'⟩, fun ⟨v, hv, h'⟩ ↦ ⟨v, ?_, h'⟩⟩
  exact List.mem_erase_of_ne (by rintro rfl; exact hne h') |>.mpr hv

theorem TableInv.expire {ev : RenewEvent} (hc : TableInv h s) (hev : ev ∈ s.events) :
    TableInv h { s with events := s.events.erase ev } ∧
      view { s with events := s.events.erase ev } =
        (view s).map (fun v ↦ if v.sid = ev.sub.sid then { v with timed := false } else v) := by
  have hmem : ∀ {v}, v ∈ s.events.erase ev ↔ v ≠ ev ∧ v ∈ s.events :=
    (hc.ids.of_map _).mem_erase_iff
  refine ⟨⟨hc.client, hc.nodup, fun v hv ↦ hc.owned v (hmem.mp hv).2,
    fun e he v hv ↦ hc.target e he v (hmem.mp hv).2,
    hc.ids.sublist ((List.erase_sublist _ _).map _), fun v hv ↦ hc.fresh v (hmem.mp hv).2,
    hc.freshSubs⟩, ?_⟩
  obtain ⟨e0, he0, hid0⟩ := hc.owned ev hev
  have hsid0 := (hc.target e0 he0 ev hev hid0).1
  simp only [view, List.map_map]
  refine List.map_congr_left fun e he ↦ ?_
  by_cases hx : e.sid = ev.sub.sid
  · have he0e := sid_inj hc.nodup he0 he (hsid0.symm.trans hx.symm)
    simp only [Function.comp_apply, hx, if_true, SpecEntry.mk.injEq, true_and]
    simp only [hasTimer, List.any_eq_false, decide_eq_true_eq]
    intro v hv h'
    refine (hmem.mp hv).1 (List.inj_on_of_nodup_map hc.ids (hmem.mp hv).2 hev ?_)
    have : (v.eventId : Int) = ev.eventId := h'.trans (he0e ▸ hid0.symm)
    exact_mod_cast this
  · simp only [Function.comp_apply, hx, if_false]
    rw [hasTimer_erase_of_ne fun h' ↦ hx (hc.target e he ev hev h').1.symm]

theorem specRenew_code_detach (cfg : Config) (x : String) (r : SubscribeResult)
    (tbl : List SpecEntry) :
    (specRenew cfg x r (tbl.map fun v ↦ if v.sid = x then { v with timed := false } else v)).2 =
      (specRenew cfg x r tbl).2 := by
  cases r <;> rfl

end Table

/-- One operation run alone from `s` ends in `s'` as the spec says: returned, between operations,
with the spec's table up to order and the spec's code. -/
def Refines (cfg : Config) (h : Nat) (i : Input) (s : Gena) (op : Op) (s' : Gena) : Prop :=
  terminal (s'.threads s.spawned) ∧ Consistent h s' ∧
    (view s').Perm (specOp cfg (some h) (genaSubscribe cfg i.exchange) (view s) op).1 ∧
    codeOf (s'.threads s.spawned) = (specOp cfg (some h) (genaSubscribe cfg i.exchange) (view s) op).2

section Refines

variable {cfg : Config} {i : Input} {h : Nat} {s x : Gena}

theorem TableInv.congr (hc : TableInv h s) (hs : x.subs = s.subs) (he : x.events = s.events)
    (hn : x.nextEventId = s.nextEventId) (hcl : x.client = some h) : TableInv h x := by
  obtain ⟨-, h1, h2, h3, h4, h5, h6⟩ := hc
  exact ⟨hcl, hs ▸ h1, hs ▸ he ▸ h2, hs ▸ he ▸ h3, he ▸ h4, hn ▸ he ▸ h5, hn ▸ hs ▸ h6⟩

theorem view_congr (hs : x.subs = s.subs) (he : x.events = s.events) : view x = view s := by
  simp [view, hs, he]

theorem refines_of_table {op : Op} {w : Gena} (hw : TableInv h w) (hs : x.subs = w.subs)
    (he : x.events = w.events) (hn : x.nextEventId = w.nextEventId) (hcl : x.client = some h)
    (hr : x.readers = []) (ho : x.subscribeOwner = none) (ht : terminal (x.threads s.spawned))
    (hv : (view w).Perm (specOp cfg (some h) (genaSubscribe cfg i.exchange) (view s) op).1)
    (hcode : codeOf (x.threads s.spawned) =
      (specOp cfg (some h) (genaSubscribe cfg i.exchange) (view s) op).2) :
    Refines cfg h i s op x :=
  ⟨ht, ⟨hw.congr hs he hn hcl, hr, ho⟩, by rwa [view_congr hs he], hcode⟩

theorem refines_of_unchanged {op : Op} (hc : Consistent h s) (hs : x.subs = s.subs)
    (he : x.events = s.events) (hn : x.nextEventId = s.nextEventId) (hcl : x.client = some h)
    (hr : x.readers = []) (ho : x.subscribeOwner = none) (ht : terminal (x.threads s.spawned))
    (hspec : (specOp cfg (some h) (genaSubscribe cfg i.exchange) (view s) op).1 = view s)
    (hcode : codeOf (x.threads s.spawned) =
      (specOp cfg (some h) (genaSubscribe cfg i.exchange) (view s) op).2) :
    Refines cfg h i s op x :=
  refines_of_table hc.toTableInv hs he hn hcl hr ho ht (by rw [hspec]) hcode

theorem recordSubscription_ok (t : Nat) (url sid : String) (timeOut granted : Int)
    (hcl : x.client = some h) (hsched : i.schedule = .success) :
    ∃ ev : Option RenewEvent,
      recordSubscription cfg i t h url timeOut (.ok sid granted) x =
        ({ x with subscribeOwner := none, subs := ⟨armedId (-1) ev, sid, url⟩ :: x.subs }.arm
          ev).setProc t (.subscribed .success sid granted) ∧
      ev.isSome = decide (granted ≠ cfg.infinite) ∧
      ∀ e ∈ ev, e.eventId = x.nextEventId ∧ e.sub.sid = sid ∧ e.handle = h := by
  obtain ⟨h2, hsome, hev⟩ :=
    scheduleGenaAutoRenew_success cfg h granted ⟨-1, sid, url⟩ x.nextEventId
  exact ⟨_, by simp only [recordSubscription, hcl, if_true, hsched, h2], hsome, hev⟩

theorem refines_record {url : String} {timeOut : Int} (hc : Consistent h s)
    (hsched : i.schedule = .success)
    (hfresh : ∀ sid g, genaSubscribe cfg i.exchange = .ok sid g → sid ∉ s.subs.map (·.sid))
    (hs : x.subs = s.subs) (he : x.events = s.events) (hn : x.nextEventId = s.nextEventId)
    (hcl : x.client = some h) (hr : x.readers = []) :
    Refines cfg h i s (.subscribe h url timeOut)
      (recordSubscription cfg i s.spawned h url timeOut (genaSubscribe cfg i.exchange) x) := by
  have hx := hc.congr hs he hn hcl
  unfold Refines
  cases hg : genaSubscribe cfg i.exchange with
  | error c =>
    simp only [recordSubscription]
    exact ⟨by simp [terminal], ⟨hx.congr rfl rfl rfl hcl, hr, rfl⟩,
      by simp [view, hs, he, specOp, hc.client], by simp [codeOf, specOp, hc.client]⟩
  | ok sid granted =>
    obtain ⟨ev, hy, hsome, hev⟩ :=
      recordSubscription_ok s.spawned url sid timeOut granted hcl hsched
    obtain ⟨hinv, hview⟩ := hx.push url (hs ▸ hfresh sid granted hg) hev none
    rw [hy]
    refine ⟨by simp [terminal], ⟨hinv.setProc .., by simpa using hr, by simp⟩, ?_,
      by simp [codeOf, specOp, hc.client]⟩
    rw [view_setProc, hview, hsome, view_congr hs he]
    simp only [specOp, hc.client, ne_eq, not_true_eq_false, if_false]
    exact (List.perm_append_singleton _ _).symm

theorem refines_subscribe {h' : Nat} {url : String} {timeOut : Int} (hc : Consistent h s)
    (hsched : i.schedule = .success)
    (hfresh : ∀ sid g, genaSubscribe cfg i.exchange = .ok sid g → sid ∉ s.subs.map (·.sid)) :
    ∃ n, Refines cfg h i s (.subscribe h' url timeOut)
      (runThread cfg s.spawned i n ((Op.subscribe h' url timeOut).start s)) := by
  by_cases hh : h' = h
  · subst hh
    refine ⟨4, ?_⟩
    simp [Op.start, runThread, stepProc, Gena.spawn, hc.client, hc.owner, hc.readers]
    exact refines_record hc hsched hfresh rfl rfl rfl rfl rfl
  · refine ⟨2, ?_⟩
    simp [Op.start, runThread, stepProc, Gena.spawn, hc.client, hc.owner, hc.readers, Ne.symm hh]
    exact refines_of_unchanged hc rfl rfl rfl rfl rfl rfl (by simp [terminal])
      (by simp [specOp, Ne.symm hh]) (by simp [codeOf, specOp, Ne.symm hh])

theorem all_sid_ne_of_findSid {x : String} (hf : findSid s.subs x = none) :
    (view s).all (·.sid ≠ x) = true := by
  simpa [view] using findSid_eq_none.mp hf

theorem all_sid_ne_of_findSid_some {x : String} {e : ClientSubscription}
    (hf : findSid s.subs x = some e) : (view s).all (·.sid ≠ x) = false := by
  simpa [view] using ⟨e, findSid_mem hf, findSid_sid hf⟩

theorem renewRecord_after_find {y : Gena} {x : String} {e : ClientSubscription} (t : Nat)
    (timeOut : Int) (job : Option RenewEvent) (hc : TableInv h s)
    (hf : findSid s.subs x = some e) (hsched : i.schedule = .success)
    (hfresh : ∀ sid g, genaSubscribe cfg i.exchange = .ok sid g →
      sid = x ∨ sid ∉ s.subs.map (·.sid))
    (hs : y.subs = updateSid (fun e ↦ { e with renewEventId := -1 }) x s.subs)
    (he : y.events = removeEvent s.events e.renewEventId) (hn : y.nextEventId = s.nextEventId)
    (hcl : y.client = some h) :
    let z := renewRecord cfg i t h x timeOut { e with renewEventId := -1 }
      (genaSubscribe cfg i.exchange) job y
    TableInv h z ∧ view z = (specRenew cfg x (genaSubscribe cfg i.exchange) (view s)).1 ∧
      (∃ t', z.threads t = renewDone job (specRenew cfg x (genaSubscribe cfg i.exchange) (view s)).2 t') ∧
      z.readers = y.readers ∧ z.subscribeOwner = y.subscribeOwner := by
  obtain ⟨hd, hdv⟩ := hc.detach hf
  have hy : TableInv h y := hd.congr hs he hn hcl
  have hyv := (view_congr hs he).trans hdv
  have hf1 : findSid y.subs x = some { e with renewEventId := -1 } := by
    rw [hs]; exact findSid_updateSid hf (f := fun e ↦ { e with renewEventId := -1 })
      (by simpa using findSid_sid hf)
  have hsids : y.subs.map (·.sid) = s.subs.map (·.sid) := by
    rw [hs]; exact map_sid_updateSid (f := fun e ↦ { e with renewEventId := -1 }) (fun _ ↦ rfl) _
  obtain ⟨hinv, hview, ⟨t', hth⟩, hrd, how⟩ :=
    renewRecord_detached cfg i t timeOut job hy hf1 rfl hsched
      (fun sid g hg ↦ hsids ▸ hfresh sid g hg)
  refine ⟨hinv, by rw [hview, hyv, specRenew_detach], ⟨t', ?_⟩, hrd, how⟩
  rw [hth, hyv, specRenew_code_detach]

theorem refines_renewRecord {y : Gena} {x : String} {timeOut : Int} {e : ClientSubscription}
    (hc : Consistent h s) (hf : findSid s.subs x = some e) (hsched : i.schedule = .success)
    (hfresh : ∀ sid g, genaSubscribe cfg i.exchange = .ok sid g →
      sid = x ∨ sid ∉ s.subs.map (·.sid))
    (hs : y.subs = updateSid (fun e ↦ { e with renewEventId := -1 }) x s.subs)
    (he : y.events = removeEvent s.events e.renewEventId) (hn : y.nextEventId = s.nextEventId)
    (hcl : y.client = some h) (hr : y.readers = []) (ho : y.subscribeOwner = none) :
    Refines cfg h i s (.renew h x timeOut)
      (renewRecord cfg i s.spawned h x timeOut { e with renewEventId := -1 }
        (genaSubscribe cfg i.exchange) none y) := by
  obtain ⟨hinv, hview, ⟨t', hth⟩, hrd, how⟩ :=
    renewRecord_after_find s.spawned timeOut none hc.toTableInv hf
      hsched hfresh hs he hn hcl
  have hsp : specOp cfg (some h) (genaSubscribe cfg i.exchange) (view s) (.renew h x timeOut) =
      ((specRenew cfg x (genaSubscribe cfg i.exchange) (view s)).1,
        some (specRenew cfg x (genaSubscribe cfg i.exchange) (view s)).2) := by
    simp only [specOp, ne_eq, not_true_eq_false, if_false, all_sid_ne_of_findSid_some hf]
    rfl
  refine ⟨by simp [hth, renewDone, terminal], ⟨hinv, hrd.trans hr, how.trans ho⟩, ?_, ?_⟩
  · rw [hsp, hview]
  · rw [hsp, hth]
    rfl

theorem refines_renew {h' : Nat} {x : String} {timeOut : Int} (hc : Consistent h s)
    (hsched : i.schedule = .success)
    (hfresh : ∀ sid g, genaSubscribe cfg i.exchange = .ok sid g →
      sid = x ∨ sid ∉ s.subs.map (·.sid)) :
    ∃ n, Refines cfg h i s (.renew h' x timeOut)
      (runThread cfg s.spawned i n ((Op.renew h' x timeOut).start s)) := by
  by_cases hh : h' = h
  · subst hh
    cases hf : findSid s.subs x with
    | none =>
      have hsp : specOp cfg (some h') (genaSubscribe cfg i.exchange) (view s) (.renew h' x timeOut) =
          (view s, some .badSid) := by
        simp only [specOp, ne_eq, not_true_eq_false, if_false, all_sid_ne_of_findSid hf, if_true]
      refine ⟨1, ?_⟩
      simp [Op.start, runThread, stepProc, Gena.spawn, hc.readers, renewFind, hc.client, hf]
      exact refines_of_unchanged hc rfl rfl rfl rfl rfl hc.owner (by simp [terminal, renewDone])
        (by rw [hsp]) (by rw [hsp]; simp [codeOf, renewDone])
    | some e =>
      refine ⟨3, ?_⟩
      simp [Op.start, runThread, stepProc, Gena.spawn, hc.readers, renewFind, hc.client, hf]
      exact refines_renewRecord hc hf hsched hfresh rfl rfl rfl rfl rfl hc.owner
  · refine ⟨1, ?_⟩
    simp [Op.start, runThread, stepProc, Gena.spawn, hc.readers, renewFind, hc.client, Ne.symm hh]
    exact refines_of_unchanged hc rfl rfl rfl rfl rfl hc.owner
      (by simp [terminal, renewDone]) (by simp [specOp, Ne.symm hh])
      (by simp [codeOf, renewDone, specOp, Ne.symm hh])

theorem refines_unsubscribe {h' : Nat} {x : String} (hc : Consistent h s) :
    ∃ n, Refines cfg h i s (.unsubscribe h' x)
      (runThread cfg s.spawned i n ((Op.unsubscribe h' x).start s)) := by
  by_cases hh : h' = h
  · subst hh
    cases hf : findSid s.subs x with
    | none =>
      have hsp : specOp cfg (some h') (genaSubscribe cfg i.exchange) (view s) (.unsubscribe h' x) =
          (view s, some .badSid) := by
        simp only [specOp, ne_eq, not_true_eq_false, if_false, all_sid_ne_of_findSid hf, if_true]
      refine ⟨1, ?_⟩
      simp [Op.start, runThread, stepProc, Gena.spawn, hc.readers, hc.client, hf]
      exact refines_of_unchanged hc rfl rfl rfl rfl rfl hc.owner (by simp [terminal])
        (by rw [hsp]) (by rw [hsp]; simp [codeOf])
    | some e =>
      have hsp : specOp cfg (some h') (genaSubscribe cfg i.exchange) (view s) (.unsubscribe h' x) =
          ((view s).filter (·.sid ≠ x), some .success) := by
        simp only [specOp, ne_eq, not_true_eq_false, if_false, all_sid_ne_of_findSid_some hf]
        rfl
      have he := findSid_mem hf
      have hex := findSid_sid hf
      obtain ⟨hcan, hgone, hother⟩ := hc.toTableInv.cancel he hex
      have hno : ∀ e' ∈ (s.cancelRenew e).subs, e'.sid = x →
          hasTimer (s.cancelRenew e).events e' = false :=
        fun e' he' hx ↦ by
          rw [sid_inj hc.nodup (by simpa using he') he (hx.trans hex.symm)]; exact hgone
      obtain ⟨hdrop, hview⟩ := hcan.dropSid hno
      refine ⟨3, ?_⟩
      simp [Op.start, runThread, stepProc, Gena.spawn, hc.readers, hc.client, hf]
      refine refines_of_table hdrop (by simp) (cancelRenew_events_congr _ _ rfl) (by simp) rfl rfl
        hc.owner (by simp [terminal]) ?_ (by rw [hsp]; simp [codeOf])
      rw [hview, hsp]
      refine .of_eq ?_
      simp only [view, cancelRenew_subs, List.filter_map, Function.comp_def]
      refine List.map_congr_left fun e' he' ↦ ?_
      have hx : e'.sid ≠ x := by simpa using (List.mem_filter.mp he').2
      rw [hother e' (List.mem_filter.mp he').1 hx]
  · have hsp : specOp cfg (some h) (genaSubscribe cfg i.exchange) (view s) (.unsubscribe h' x) =
        (view s, some .badHandle) := by simp [specOp, Ne.symm hh]
    refine ⟨1, ?_⟩
    simp [Op.start, runThread, stepProc, Gena.spawn, hc.readers, hc.client, Ne.symm hh]
    exact refines_of_unchanged hc rfl rfl rfl rfl rfl hc.owner (by simp [terminal])
      (by rw [hsp]) (by rw [hsp]; simp [codeOf])

theorem tableInv_nil (hcl : x.client = some h) (hs : x.subs = []) (he : x.events = []) :
    TableInv h x :=
  ⟨hcl, by simp [hs], by simp [he], by simp [hs], by simp [he], by simp [he], by simp [hs]⟩

theorem TableInv.popFront {e : ClientSubscription} {rest : List ClientSubscription}
    (hc : TableInv h s) (hs : s.subs = e :: rest) :
    TableInv h { s.cancelRenew e with subs := removeSid s.subs e.sid } ∧
      removeSid s.subs e.sid = rest := by
  have he : e ∈ s.subs := hs ▸ List.mem_cons_self _ _
  obtain ⟨hcan, hgone, -⟩ := hc.cancel he rfl
  have hno : ∀ e' ∈ (s.cancelRenew e).subs, e'.sid = e.sid →
      hasTimer (s.cancelRenew e).events e' = false := fun e' he' hx ↦ by
    rw [sid_inj hc.nodup (by simpa using he') he hx]; exact hgone
  refine ⟨by simpa using (hcan.dropSid hno).1, ?_⟩
  have hnd := hc.nodup
  rw [hs, List.map_cons, List.nodup_cons] at hnd
  rw [hs, removeSid, List.filter_cons_of_neg (by simp)]
  exact List.filter_eq_self.mpr fun e' he' ↦ by
    simpa using fun hx : e'.sid = e.sid ↦ hnd.1 (hx ▸ List.mem_map_of_mem _ he')

theorem stepProc_jobEntry_expire {t : Nat} {ev : RenewEvent} (ht : x.threads t = .jobEntry ev)
    (ha : cfg.autoRenewTime = 0) :
    stepProc cfg i t x = some (x.setProc t (.jobCallback ev.handle
      (.subscriptionExpired { ev.sub with errCode := .success }))) := by
  simp [stepProc, ht, ha]

theorem stepProc_jobEntry_renew {t : Nat} {ev : RenewEvent} (ht : x.threads t = .jobEntry ev)
    (ha : cfg.autoRenewTime ≠ 0) :
    stepProc cfg i t x =
      some (x.setProc t (.renewEntry ev.handle ev.sub.sid ev.sub.timeOut (some ev))) := by
  simp [stepProc, ht, ha]

theorem stepProc_renewEntry {t h' : Nat} {sid : String} {timeOut : Int}
    {job : Option RenewEvent} (ht : x.threads t = .renewEntry h' sid timeOut job)
    (hr : x.readers = []) : stepProc cfg i t x = some (renewFind t h' sid timeOut job x) := by
  simp [stepProc, ht, hr]

theorem renewFind_found {t : Nat} {sid : String} {timeOut : Int} {job : Option RenewEvent}
    {e : ClientSubscription} (hcl : x.client = some h) (hf : findSid x.subs sid = some e) :
    renewFind t h sid timeOut job x =
      { x with
        events := removeEvent x.events e.renewEventId
        subs := updateSid (fun e ↦ { e with renewEventId := -1 }) sid x.subs }.setProc t
        (.renewRequest h sid timeOut { e with renewEventId := -1 } job) := by
  simp [renewFind, hcl, hf]

theorem stepProc_renewRequest {t h' : Nat} {sid : String} {timeOut : Int}
    {copy : ClientSubscription} {job : Option RenewEvent}
    (ht : x.threads t = .renewRequest h' sid timeOut copy job) :
    stepProc cfg i t x =
      some (x.setProc t (.renewRecord h' sid timeOut copy (genaSubscribe cfg i.exchange) job)) := by
  simp [stepProc, ht]

theorem stepProc_renewRecord {t h' : Nat} {sid : String} {timeOut : Int}
    {copy : ClientSubscription} {r : SubscribeResult} {job : Option RenewEvent}
    (ht : x.threads t = .renewRecord h' sid timeOut copy r job) (hr : x.readers = []) :
    stepProc cfg i t x = some (renewRecord cfg i t h' sid timeOut copy r job x) := by
  simp [stepProc, ht, hr]

theorem stepProc_jobCallback {t : Nat} {event : Upcall} (ht : x.threads t = .jobCallback h event)
    (hcl : x.client = some h) : stepProc cfg i t x = some (x.setProc t (.upcall h event)) := by
  simp [stepProc, ht, hcl]

theorem stepProc_upcall {t : Nat} {event : Upcall} (ht : x.threads t = .upcall h event) :
    stepProc cfg i t x =
      some ({ x with upcalls := x.upcalls ++ [(t, h, event)] }.setProc t .finished) := by
  simp [stepProc, ht]

theorem renewDone_some (ev : RenewEvent) (c : Code) (timeOut : Int) :
    (∃ event, renewDone (some ev) c timeOut = .jobCallback ev.handle event) ∨
      renewDone (some ev) c timeOut = .finished := by
  simp only [renewDone]
  split_ifs
  · exact .inl ⟨_, rfl⟩
  · exact .inr rfl

theorem refines_job_tail {op : Op} {z : Gena} (hz : TableInv h z) (hr : z.readers = [])
    (ho : z.subscribeOwner = none)
    (ht : (∃ event, z.threads s.spawned = .jobCallback h event) ∨ z.threads s.spawned = .finished)
    (hv : (view z).Perm (specOp cfg (some h) (genaSubscribe cfg i.exchange) (view s) op).1)
    (hcode : (specOp cfg (some h) (genaSubscribe cfg i.exchange) (view s) op).2 = none) :
    Refines cfg h i s op (runThread cfg s.spawned i 2 z) := by
  rcases ht with ⟨event, ht⟩ | ht
  · rw [runThread_step (stepProc_jobCallback ht hz.client),
      runThread_step (stepProc_upcall (Function.update_same _ _ _)),
      runThread_of_terminal (by simp [terminal])]
    exact refines_of_table hz (by simp) (by simp) (by simp) (by simp [hz.client]) (by simp [hr])
      (by simp [ho]) (by simp [terminal]) hv (by simp [codeOf, hcode])
  · rw [runThread_of_terminal (by simp [ht, terminal])]
    exact refines_of_table hz rfl rfl rfl hz.client hr ho (by simp [ht, terminal]) hv
      (by simp [ht, codeOf, hcode])

theorem stepProc_unregisterLoop_cons {t : Nat} {e : ClientSubscription}
    {rest : List ClientSubscription} (ht : x.threads t = .unregisterLoop h) (hr : x.readers = [])
    (hcl : x.client = some h) (hl : x.subs = e :: rest) :
    stepProc cfg i t x =
      some ({ x with subs := removeSid x.subs e.sid }.setProc t (.unregisterRequest h e)) := by
  simp [stepProc, ht, hr, hcl, hl]

theorem stepProc_unregisterRequest {t : Nat} {copy : ClientSubscription}
    (ht : x.threads t = .unregisterRequest h copy) :
    stepProc cfg i t x = some ((x.cancelRenew copy).setProc t (.unregisterLoop h)) := by
  simp [stepProc, ht]

theorem runThread_unregister (cfg : Config) (i : Input) {t : Nat} {y : Gena} (hc : TableInv h y)
    (hr : y.readers = []) (ht : y.threads t = .unregisterLoop h) (n : Nat) (hn : 2 * y.subs.length + 1 ≤ n) :
    (runThread cfg t i n y).threads t = .returned .success ∧ (runThread cfg t i n y).subs = [] ∧
      (runThread cfg t i n y).events = [] ∧ (runThread cfg t i n y).readers = [] ∧
      (runThread cfg t i n y).subscribeOwner = y.subscribeOwner ∧
      (runThread cfg t i n y).client = y.client ∧
      (runThread cfg t i n y).nextEventId = y.nextEventId := by
  generalize hl : y.subs = l at hn
  induction l generalizing y n with
  | nil =>
    obtain ⟨m, rfl⟩ : ∃ m, n = m + 1 := ⟨n - 1, by omega⟩
    have hev : y.events = [] := List.eq_nil_iff_forall_not_mem.mpr fun v hv ↦ by
      obtain ⟨e, he, -⟩ := hc.owned v hv; simp [hl] at he
    simp only [runThread, stepProc, ht, hr, hc.client, hl, if_true]
    rw [runThread_of_terminal (by simp [terminal])]
    simp [hev, hr]
  | cons e rest ih =>
    obtain ⟨m, rfl⟩ : ∃ m, n = m + 2 := ⟨n - 2, by simp [hl] at hn; omega⟩
    obtain ⟨hpop, hrest⟩ := hc.popFront hl
    rw [runThread_step (stepProc_unregisterLoop_cons ht hr hc.client hl),
      runThread_step (stepProc_unregisterRequest (Function.update_same _ _ _))]
    have := @ih ((({ y with subs := removeSid y.subs e.sid }.setProc t
        (.unregisterRequest h e)).cancelRenew e).setProc t (.unregisterLoop h))
      (hpop.congr (by simp) (by rw [setProc_events]; exact cancelRenew_events_congr y e rfl)
        (by simp) (by simp [hc.client]))
      (by simp [hr]) (by simp) m (by simp [hrest]) (by simp [hl] at hn; omega)
    simpa using this

theorem refines_unregister {h' : Nat} (hc : Consistent h s) :
    ∃ n, Refines cfg h i s (.unregister h')
      (runThread cfg s.spawned i n ((Op.unregister h').start s)) := by
  by_cases hh : h' = h
  · subst hh
    obtain ⟨ht, hs, he, hr, ho, hcl, -⟩ := runThread_unregister cfg i (t := s.spawned)
      (hc.toTableInv.congr (s := s) (x := (Op.unregister h').start s) rfl rfl rfl hc.client)
      (by simp [Op.start, Gena.spawn, hc.readers]) (by simp [Op.start, Gena.spawn])
      (2 * s.subs.length + 1) (by simp [Op.start, Gena.spawn])
    have hcl' := hcl.trans hc.client
    have ho' := ho.trans hc.owner
    refine ⟨2 * s.subs.length + 1, by simp [ht, terminal], ⟨tableInv_nil hcl' hs he, hr, ho'⟩,
      by simp [view, hs, specOp], by simp [ht, codeOf, specOp]⟩
  · refine ⟨1, ?_⟩
    simp [Op.start, runThread, stepProc, Gena.spawn, hc.readers, hc.client, Ne.symm hh]
    exact refines_of_unchanged hc rfl rfl rfl rfl rfl hc.owner (by simp [terminal])
      (by simp [specOp, Ne.symm hh]) (by simp [codeOf, specOp, Ne.symm hh])

theorem refines_jobRecord {y : Gena} {ev : RenewEvent} {e : ClientSubscription}
    (hc : Consistent h s) (hev : ev ∈ s.events) (ha : cfg.autoRenewTime ≠ 0)
    (hf : findSid s.subs ev.sub.sid = some e) (hsched : i.schedule = .success)
    (hfresh : ∀ sid g, genaSubscribe cfg i.exchange = .ok sid g →
      sid = ev.sub.sid ∨ sid ∉ s.subs.map (·.sid))
    (hs : y.subs = updateSid (fun e ↦ { e with renewEventId := -1 }) ev.sub.sid s.subs)
    (he : y.events = removeEvent (s.events.erase ev) e.renewEventId)
    (hn : y.nextEventId = s.nextEventId) (hcl : y.client = some h) (hr : y.readers = [])
    (ho : y.subscribeOwner = none) :
    Refines cfg h i s (.job ev) (runThread cfg s.spawned i 2
      (renewRecord cfg i s.spawned ev.handle ev.sub.sid ev.sub.timeOut { e with renewEventId := -1 }
        (genaSubscribe cfg i.exchange) (some ev) y)) := by
  obtain ⟨hexp, hexpv⟩ := hc.toTableInv.expire hev
  obtain ⟨e0, he0, hid0⟩ := hc.owned ev hev
  obtain rfl := (hc.target e0 he0 ev hev hid0).2
  obtain ⟨hinv, hview, ⟨t', hth⟩, hrd, how⟩ :=
    renewRecord_after_find (s := { s with events := s.events.erase ev }) s.spawned ev.sub.timeOut
      (some ev) hexp hf hsched hfresh hs he hn hcl
  refine refines_job_tail hinv (hrd.trans hr) (how.trans ho) (hth ▸ renewDone_some ev _ t') ?_
    (by simp [specOp, ha])
  rw [hview, hexpv, specRenew_detach]
  simp [specOp, ha]

theorem refines_job {ev : RenewEvent} (hc : Consistent h s) (hev : ev ∈ s.events)
    (hsched : i.schedule = .success)
    (hfresh : ∀ sid g, genaSubscribe cfg i.exchange = .ok sid g →
      sid = ev.sub.sid ∨ sid ∉ s.subs.map (·.sid)) :
    ∃ n, Refines cfg h i s (.job ev) (runThread cfg s.spawned i n ((Op.job ev).start s)) := by
  obtain ⟨hexp, hexpv⟩ := hc.toTableInv.expire hev
  obtain ⟨e0, he0, hid0⟩ := hc.owned ev hev
  obtain ⟨hsid0, rfl⟩ := hc.target e0 he0 ev hev hid0
  have hstart : ((Op.job ev).start s).threads s.spawned = .jobEntry ev := by
    simp [Op.start, Gena.spawn]
  by_cases ha : cfg.autoRenewTime = 0
  · refine ⟨3, ?_⟩
    rw [runThread_step (stepProc_jobEntry_expire hstart ha)]
    refine refines_job_tail (hexp.congr (by simp [Op.start, Gena.spawn])
      (by simp [Op.start, Gena.spawn]) (by simp [Op.start, Gena.spawn])
      (by simp [Op.start, Gena.spawn, hc.client])) (by simp [Op.start, Gena.spawn, hc.readers])
      (by simp [Op.start, Gena.spawn, hc.owner]) (.inl ⟨_, Function.update_same _ _ _⟩) ?_
      (by simp [specOp, ha])
    rw [view_setProc, view_congr (s := { s with events := s.events.erase ev })
      (by simp [Op.start, Gena.spawn]) (by simp [Op.start, Gena.spawn]), hexpv]
    simp [specOp, ha]
  · obtain ⟨e, hf⟩ : ∃ e, findSid s.subs ev.sub.sid = some e :=
      Option.ne_none_iff_exists'.mp fun h' ↦ findSid_eq_none.mp h' e0 he0 hsid0.symm
    refine ⟨6, ?_⟩
    rw [runThread_step (stepProc_jobEntry_renew hstart ha),
      runThread_step (stepProc_renewEntry (Function.update_same _ _ _)
        (by simp [Op.start, Gena.spawn, hc.readers])),
      renewFind_found (by simp [Op.start, Gena.spawn, hc.client]) (by simpa [Op.start, Gena.spawn]),
      runThread_step (stepProc_renewRequest (Function.update_same _ _ _)),
      runThread_step (stepProc_renewRecord (Function.update_same _ _ _)
        (by simp [Op.start, Gena.spawn, hc.readers]))]
    exact refines_jobRecord hc hev ha hf hsched hfresh (by simp [Op.start, Gena.spawn])
      (by simp [Op.start, Gena.spawn]) (by simp [Op.start, Gena.spawn])
      (by simp [Op.start, Gena.spawn, hc.client]) (by simp [Op.start, Gena.spawn, hc.readers])
      (by simp [Op.start, Gena.spawn, hc.owner])

end Refines

theorem consistent_initial (h : Nat) : Consistent h (Gena.initial (some h)) :=
  ⟨tableInv_nil rfl rfl rfl, rfl, rfl⟩

/-- Run one at a time from a good table, each operation leaves a good table, the spec's
table up to order, with its timers, and the spec's return code. -/
theorem sequential_refinement {cfg : Config} {i : Input} {h : Nat} {s : Gena} (op : Op)
    (hc : Consistent h s) (hsched : i.schedule = .success) (hready : op.ready s)
    (hfresh : ∀ sid g, genaSubscribe cfg i.exchange = .ok sid g → op.freshSid s sid) :
    ∃ n, Refines cfg h i s op (runThread cfg s.spawned i n (op.start s)) := by
  cases op with
  | subscribe h' url timeOut => exact refines_subscribe hc hsched hfresh
  | renew h' x timeOut => exact refines_renew hc hsched hfresh
  | unsubscribe h' x => exact refines_unsubscribe hc
  | unregister h' => exact refines_unregister hc
  | job ev => exact refines_job hc hready hsched hfresh

def renewInfinite : List Move :=
  let url := "http://10.0.0.5:49152/evt"
  let answer (sid timeout : String) : Input :=
    ⟨.response 200 [("sid", sid), ("timeout", timeout)], .success⟩
  [.call (.subscribe 1 url 1800), .run 0 (answer "uuid:x" "Second-1800"),
    .run 0 (answer "uuid:x" "Second-1800"), .run 0 (answer "uuid:x" "Second-1800"),
    .run 0 (answer "uuid:x" "Second-1800"), .call (.renew 1 "uuid:x" 1800),
    .run 1 (answer "uuid:y" "Second-infinite"), .run 1 (answer "uuid:y" "Second-infinite"),
    .run 1 (answer "uuid:y" "Second-infinite")]

theorem renew_infinite_arms_no_timer :
    ∃ s, exec sampleConfig renewInfinite (Gena.initial (some 1)) = some s ∧
      s.threads 1 = .renewed .success (-1) ∧ s.subs.map (·.sid) = ["uuid:y"] ∧ s.events = [] :=
  ⟨_, rfl, rfl, rfl, rfl⟩

theorem sequential_refinement_subscribe :
    ∃ n, Refines sampleConfig 1
      ⟨.response 200 [("sid", "uuid:x"), ("timeout", "Second-1800")], .success⟩
      (Gena.initial (some 1)) (.subscribe 1 "http://10.0.0.5:49152/evt" 1800)
      (runThread sampleConfig 0
        ⟨.response 200 [("sid", "uuid:x"), ("timeout", "Second-1800")], .success⟩ n
        ((Op.subscribe 1 "http://10.0.0.5:49152/evt" 1800).start (Gena.initial (some 1)))) :=
  sequential_refinement _ (consistent_initial 1) rfl trivial fun _ _ _ ↦ by
    simp [Op.freshSid, Gena.initial]

end Npupnp.Gena.Sequential
