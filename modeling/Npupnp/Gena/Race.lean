import Npupnp.Gena.Locks

namespace Npupnp.Gena.Race

open Basic Notify Machine Locks

def quiet : Proc → Bool
  | .notifyEntry _ | .notifyLookup .. | .notifyRetry .. | .notifyRetryLookup .. => true
  | _ => false

def answers (s : Gena) (n : Nat) : List Nat :=
  (s.responses.filter (fun e ↦ e.1 = n)).map (·.2)

def upcallsOf (s : Gena) (n : Nat) : List Upcall :=
  (s.upcalls.filter (fun e ↦ e.1 = n)).map (·.2.2)

/-- Answers and upcalls come from started threads, and a NOTIFY handler that has not
answered yet has made none. -/
structure LogInv (s : Gena) : Prop where
  responses : ∀ e ∈ s.responses, e.1 < s.spawned
  upcalls : ∀ e ∈ s.upcalls, e.1 < s.spawned
  quiet : ∀ t, quiet (s.threads t) → answers s t = [] ∧ upcallsOf s t = []

theorem quiet_renewDone (job : Option RenewEvent) (rc : Code) (timeOut : Int) :
    quiet (renewDone job rc timeOut) = false := by
  unfold renewDone; split <;> (try split) <;> rfl

theorem recordSubscription_quiet (cfg : Config) (i : Input) (t h : Nat) (url : String)
    (timeOut : Int) (r : SubscribeResult) (s : Gena) :
    quiet ((recordSubscription cfg i t h url timeOut r s).threads t) = false := by
  unfold recordSubscription
  split
  · simp [quiet]
  · split <;> simp [quiet]

theorem renewFind_quiet (t h : Nat) (sid : String) (timeOut : Int) (job : Option RenewEvent)
    (s : Gena) : quiet ((renewFind t h sid timeOut job s).threads t) = false := by
  unfold renewFind
  split
  · split
    · simp [quiet_renewDone]
    · simp [quiet]
  · simp [quiet_renewDone]

theorem renewRecord_quiet (cfg : Config) (i : Input) (t h : Nat) (sid : String)
    (timeOut : Int) (copy : ClientSubscription) (r : SubscribeResult) (job : Option RenewEvent)
    (s : Gena) : quiet ((renewRecord cfg i t h sid timeOut copy r job s).threads t) = false := by
  unfold renewRecord
  dsimp only
  split
  · split
    · simp [quiet_renewDone]
    · split <;> simp [quiet_renewDone]
  · simp [quiet_renewDone]

theorem stepProc_quiet {cfg : Config} {i : Input} {t : Nat} {s s' : Gena}
    (h : stepProc cfg i t s = some s') (hq : quiet (s'.threads t)) :
    quiet (s.threads t) ∧ s'.responses = s.responses ∧ s'.upcalls = s.upcalls := by
  unfold stepProc at h
  cases hp : s.threads t <;> simp only [hp, reduceCtorEq] at h
  case subscribeRecord =>
    split_ifs at h
    cases h
    simp [recordSubscription_quiet] at hq
  case renewEntry =>
    split_ifs at h
    cases h
    simp [renewFind_quiet] at hq
  case renewRecord =>
    split_ifs at h
    cases h
    simp [renewRecord_quiet] at hq
  all_goals
    repeat' split at h
    all_goals cases h
    all_goals simp only [setProc_threads, Function.update_same, quiet, Bool.false_eq_true] at hq
    all_goals exact ⟨rfl, rfl, rfl⟩

theorem logs_of_tagged {s s' : Gena} {t u : Nat} (hT : Tagged t s s') (hu : u ≠ t) :
    answers s' u = answers s u ∧ upcallsOf s' u = upcallsOf s u := by
  obtain ⟨⟨r, hr, hrt⟩, us, hus, hust⟩ := hT
  constructor
  · simp only [answers, hr, List.filter_append, List.map_append, List.append_right_eq_self,
      List.map_eq_nil_iff, List.filter_eq_nil_iff, decide_eq_true_eq]
    exact fun e he ↦ by rw [hrt e he]; exact Ne.symm hu
  · simp only [upcallsOf, hus, List.filter_append, List.map_append, List.append_right_eq_self,
      List.map_eq_nil_iff, List.filter_eq_nil_iff, decide_eq_true_eq]
    exact fun e he ↦ by rw [hust e he]; exact Ne.symm hu

theorem logInv_initial (client : Option Nat) : LogInv (Gena.initial client) :=
  ⟨by simp [Gena.initial], by simp [Gena.initial], fun _ _ ↦ by
    simp [answers, upcallsOf, Gena.initial]⟩

theorem logInv_spawn {s : Gena} (p : Proc) (hi : LogInv s) : LogInv (s.spawn p) := by
  refine ⟨fun e he ↦ by simpa [Gena.spawn] using Nat.lt_succ_of_lt (hi.responses e he),
    fun e he ↦ by simpa [Gena.spawn] using Nat.lt_succ_of_lt (hi.upcalls e he), fun u hq ↦ ?_⟩
  by_cases hu : u = s.spawned
  · subst hu
    constructor
    · simp only [answers, Gena.spawn, setProc_responses, List.map_eq_nil_iff,
        List.filter_eq_nil_iff, decide_eq_true_eq]
      exact fun e he ↦ (hi.responses e he).ne
    · simp only [upcallsOf, Gena.spawn, setProc_upcalls, List.map_eq_nil_iff,
        List.filter_eq_nil_iff, decide_eq_true_eq]
      exact fun e he ↦ (hi.upcalls e he).ne
  · simpa [Gena.spawn, hu, answers, upcallsOf] using
      hi.quiet u (by simpa [Gena.spawn, hu] using hq)

theorem logInv_step {cfg : Config} {s s' : Gena} (h : Step cfg s s') (hl : LockInv s)
    (hi : LogInv s) : LogInv s' := by
  cases h with
  | call c => exact logInv_spawn _ hi
  | fire ev _ => exact logInv_spawn _ ⟨hi.responses, hi.upcalls, hi.quiet⟩
  | run _ t i h =>
    have ht : t < s.spawned := by
      by_contra hc
      exact stepProc_active h (hl.fresh t (by omega))
    obtain ⟨hth, hsp, -⟩ := stepProc_framed h
    obtain ⟨⟨r, hr, hrt⟩, us, hus, hust⟩ := stepProc_tagged h
    refine ⟨fun e he ↦ ?_, fun e he ↦ ?_, fun u hq ↦ ?_⟩
    · rw [hr, List.mem_append] at he
      rcases he with he | he
      · exact hsp ▸ hi.responses e he
      · exact hsp ▸ (hrt e he ▸ ht)
    · rw [hus, List.mem_append] at he
      rcases he with he | he
      · exact hsp ▸ hi.upcalls e he
      · exact hsp ▸ (hust e he ▸ ht)
    · by_cases hu : u = t
      · subst hu
        obtain ⟨hq', hr', hu'⟩ := stepProc_quiet h hq
        simpa [answers, upcallsOf, hr', hu'] using hi.quiet u hq'
      · obtain ⟨ha, hb⟩ := logs_of_tagged (stepProc_tagged h) hu
        rw [ha, hb]
        exact hi.quiet u (by rwa [(stepProc_framed h).other hu] at hq)

theorem logInv_reachable {cfg : Config} {s : Gena} (h : Reachable cfg s) : LogInv s := by
  obtain ⟨c, hc⟩ := h
  induction hc with
  | refl => exact logInv_initial c
  | tail hr hs ih => exact logInv_step hs (lockInv_reachable ⟨c, hr⟩) ih

def terminal : Proc → Bool
  | .subscribed .. | .renewed .. | .returned _ | .finished => true
  | _ => false

theorem stepProc_of_terminal {cfg : Config} {i : Input} {u : Nat} {s : Gena}
    (hp : terminal (s.threads u)) : stepProc cfg i u s = none := by
  unfold stepProc
  cases hq : s.threads u <;> simp only [hq, terminal, Bool.false_eq_true] at hp ⊢

theorem recordSubscription_terminal (cfg : Config) (i : Input) (t h : Nat) (url : String)
    (timeOut : Int) (r : SubscribeResult) (s : Gena) :
    terminal ((recordSubscription cfg i t h url timeOut r s).threads t) := by
  unfold recordSubscription
  split
  · simp [terminal]
  · split <;> simp [terminal]

theorem run_own {cfg : Config} (r : Run cfg) (k u : Nat)
    (hu : (r.state k).threads u ≠ .idle) :
    ((r.state (k + 1)).threads u = (r.state k).threads u ∧
      answers (r.state (k + 1)) u = answers (r.state k) u ∧
      upcallsOf (r.state (k + 1)) u = upcallsOf (r.state k) u) ∨
    ∃ i, stepProc cfg i u (r.state k) = some (r.state (k + 1)) := by
  have hlt : u < (r.state k).spawned := by
    by_contra hc
    exact hu ((lockInv_reachable (r.reachable k)).fresh u (by omega))
  rcases r.step k with h | h
  · generalize r.state k = s at h hu hlt
    generalize r.state (k + 1) = s' at h
    cases h with
    | call c => exact .inl ⟨by simp [Gena.spawn, hlt.ne], rfl, rfl⟩
    | fire ev _ => exact .inl ⟨by simp [Gena.spawn, hlt.ne], rfl, rfl⟩
    | run _ t i h =>
      by_cases htu : t = u
      · exact .inr ⟨i, htu ▸ h⟩
      · exact .inl ⟨(stepProc_framed h).other (Ne.symm htu),
          logs_of_tagged (stepProc_tagged h) (Ne.symm htu)⟩
  · exact .inl ⟨by rw [h], by rw [h], by rw [h]⟩

theorem run_stays {cfg : Config} (r : Run cfg) {a t : Nat} (P : Proc → Prop)
    (hidle : ¬ P .idle)
    (hstep : ∀ {i s s'}, P (s.threads t) → stepProc cfg i t s = some s' → P (s'.threads t))
    (ha : P ((r.state a).threads t)) {k : Nat} (hak : a ≤ k) : P ((r.state k).threads t) := by
  induction k, hak using Nat.le_induction with
  | base => exact ha
  | succ k _ ih =>
    rcases run_own r k t (fun h ↦ hidle (h ▸ ih)) with ⟨h', -⟩ | ⟨i, hs⟩
    · rwa [h']
    · exact hstep ih hs

theorem run_terminal_stays {cfg : Config} (r : Run cfg) {k u : Nat}
    (hp : terminal ((r.state k).threads u)) {j : Nat} (hj : k ≤ j) :
    (r.state j).threads u = (r.state k).threads u := by
  induction j, hj using Nat.le_induction with
  | base => rfl
  | succ j _ ih =>
    rcases run_own r j u (by rw [ih]; intro h; simp [h, terminal] at hp) with
      ⟨h, -⟩ | ⟨i, h⟩
    · rw [h, ih]
    · rw [stepProc_of_terminal (ih ▸ hp)] at h
      cases h

theorem run_subscribe_pending {cfg : Config} (r : Run cfg) {a b u h : Nat} {url : String}
    {timeOut : Int}
    (ha : (r.state a).threads u = .subscribeRequest h url timeOut ∨
      ∃ res, (r.state a).threads u = .subscribeRecord h url timeOut res)
    (hb : ∃ res, (r.state b).threads u = .subscribeRecord h url timeOut res) (k : Nat)
    (hak : a ≤ k) (hkb : k ≤ b) :
    (r.state k).threads u = .subscribeRequest h url timeOut ∨
      ∃ res, (r.state k).threads u = .subscribeRecord h url timeOut res := by
  induction k, hak using Nat.le_induction with
  | base => exact ha
  | succ k hak ih =>
    have ih := ih (by omega)
    rcases run_own r k u (by rcases ih with h' | ⟨_, h'⟩ <;> simp [h']) with
      ⟨h', -⟩ | ⟨i, h'⟩
    · rwa [h']
    · rcases ih with hp | ⟨res, hp⟩
      · simp only [stepProc, hp, Option.some.injEq] at h'
        exact .inr ⟨genaSubscribe cfg i.exchange, by rw [← h']; simp⟩
      · simp only [stepProc, hp] at h'
        split at h'
        · have hterm : terminal ((r.state (k + 1)).threads u) := by
            rw [← Option.some.inj h']
            exact recordSubscription_terminal ..
          obtain ⟨res', hb⟩ := hb
          rw [run_terminal_stays r hterm hkb] at hb
          simp [hb, terminal] at hterm
        · cases h'

theorem step_client {cfg : Config} {s s' : Gena} (h : Step cfg s s') : s'.client = s.client := by
  cases h with
  | call c => rfl
  | fire ev _ => rfl
  | run _ t i h => exact (stepProc_framed h).2.2

theorem run_client {cfg : Config} (r : Run cfg) (k : Nat) :
    (r.state k).client = (r.state 0).client := by
  induction k with
  | zero => rfl
  | succ k ih =>
    rcases r.step k with h | h
    · rw [step_client h, ih]
    · rw [h, ih]

def HasSid (s : Gena) (x : String) : Prop := ∃ e ∈ s.subs, e.sid = x

def Progress (x : String) (ps : List (String × String)) (b k : Nat) (s : Gena) (n : Nat) :
    Prop :=
  (answers s n = [] ∧ upcallsOf s n = [] ∧
    ((∃ txn, s.threads n = .notifyEntry txn ∧ validateNotification txn = .proceed x 0 ps) ∨
      s.threads n = .notifyLookup x 0 ps ∨ s.threads n = .notifyRetry x 0 ps ∨
      (s.threads n = .notifyRetryLookup x 0 ps ∧ b < k))) ∨
  (answers s n = [200] ∧ upcallsOf s n = [] ∧
    ∃ h, s.threads n = .upcall h (.eventReceived x 0 ps)) ∨
  (answers s n = [200] ∧ upcallsOf s n = [.eventReceived x 0 ps] ∧ s.threads n = .finished)

@[simp] theorem answers_setProc (s : Gena) (t n : Nat) (p : Proc) :
    answers (s.setProc t p) n = answers s n := rfl

@[simp] theorem upcallsOf_setProc (s : Gena) (t n : Nat) (p : Proc) :
    upcallsOf (s.setProc t p) n = upcallsOf s n := rfl

@[simp] theorem answers_respond (s : Gena) (n st : Nat) :
    answers (s.respond n st) n = answers s n ++ [st] := by
  simp [answers, Gena.respond, List.filter_append]

@[simp] theorem upcallsOf_respond (s : Gena) (n t st : Nat) :
    upcallsOf (s.respond t st) n = upcallsOf s n := rfl

theorem progress_own {cfg : Config} {i : Input} {x : String} {ps : List (String × String)}
    {b k n h : Nat} {s s' : Gena} (hp : Progress x ps b k s n)
    (hs : stepProc cfg i n s = some s') (hc : s.client = some h)
    (hown : s.subscribeOwner = none → b < k) (hkeep : b < k → quiet (s.threads n) → HasSid s x) :
    Progress x ps b (k + 1) s' n := by
  rcases hp with ⟨ha, hu, ⟨txn, hn, hv⟩ | hn | hn | ⟨hn, hbk⟩⟩ | ⟨ha, hu, h', hn⟩ | ⟨-, -, hn⟩
  · simp only [stepProc, hn, hv, Option.some.injEq] at hs
    subst hs
    exact .inl ⟨ha, hu, .inr (.inl (by simp))⟩
  · simp only [stepProc, hn, hc] at hs
    split at hs
    · split at hs
      · rename_i e he
        cases hs
        refine .inr (.inl ⟨by simp [ha], hu, h, ?_⟩)
        simp [findSid_sid he]
      · cases hs
        exact .inl ⟨ha, hu, .inr (.inr (.inl (by simp)))⟩
    · cases hs
  · simp only [stepProc, hn] at hs
    split at hs
    · rename_i hfree
      cases hs
      exact .inl ⟨ha, hu, .inr (.inr (.inr ⟨by simp, by have := hown hfree; omega⟩))⟩
    · cases hs
  · obtain ⟨e, he, hex⟩ := hkeep hbk (by simp [hn, quiet])
    obtain ⟨f, hf⟩ : ∃ f, findSid s.subs x = some f := by
      cases hfs : findSid s.subs x with
      | none => exact absurd hex (findSid_eq_none.mp hfs e he)
      | some f => exact ⟨f, rfl⟩
    simp only [stepProc, hn, hc, hf] at hs
    split at hs
    · cases hs
      refine .inr (.inl ⟨?_, hu, h, by simp [findSid_sid hf]⟩)
      simp only [answers_setProc, answers_respond]
      change answers s n ++ [200] = [200]
      rw [ha, List.nil_append]
    · cases hs
  · simp only [stepProc, hn, Option.some.injEq] at hs
    subst hs
    refine .inr (.inr ⟨ha, ?_, by simp⟩)
    simp [upcallsOf, List.filter_append, ← hu]
  · rw [stepProc_of_terminal (by simp [hn, terminal])] at hs
    cases hs

/-- A NOTIFY with `SEQ: 0` for the SID `x` of a pending SUBSCRIBE answer is never refused with 412
for overtaking it: while `x` stays in the table, it answers 200 once and calls back once. -/
theorem notify_overtaking_subscribe_admitted {cfg : Config} (r : Run cfg) {a a' b n u h : Nat}
    {x url : String} {timeOut granted : Int} {ps : List (String × String)}
    (hsent : (r.state a').threads u = .subscribeRequest h url timeOut ∨
      ∃ res, (r.state a').threads u = .subscribeRecord h url timeOut res)
    (hn : (∃ txn, (r.state a).threads n = .notifyEntry txn ∧
        validateNotification txn = .proceed x 0 ps) ∨ (r.state a).threads n = .notifyLookup x 0 ps)
    (haa : a' ≤ a)
    (hrec : (r.state b).threads u = .subscribeRecord h url timeOut (.ok x granted) ∧
      (r.state b).client = some h)
    (hkeep : ∀ k, b < k → quiet ((r.state k).threads n) → HasSid (r.state k) x) :
    ∀ k, a ≤ k → (∀ st ∈ answers (r.state k) n, st = 200) ∧
      ((r.state k).threads n = .finished →
        answers (r.state k) n = [200] ∧ upcallsOf (r.state k) n = [.eventReceived x 0 ps]) := by
  have hclient : ∀ k, (r.state k).client = some h := fun k ↦ by
    rw [run_client, ← run_client r b, hrec.2]
  have hprog : ∀ k, a ≤ k → Progress x ps b k (r.state k) n := by
    intro k hak
    induction k, hak using Nat.le_induction with
    | base =>
      have hq : quiet ((r.state a).threads n) := by
        rcases hn with ⟨txn, hn, -⟩ | hn <;> simp [hn, quiet]
      obtain ⟨ha, hu'⟩ := (logInv_reachable (r.reachable a)).quiet n hq
      exact .inl ⟨ha, hu', by rcases hn with hn | hn <;> [exact .inl hn; exact .inr (.inl hn)]⟩
    | succ k hak ih =>
      have hact : (r.state k).threads n ≠ .idle := by
        rcases ih with ⟨-, -, ⟨txn, hn, -⟩ | hn | hn | ⟨hn, -⟩⟩ | ⟨-, -, _, hn⟩ | ⟨-, -, hn⟩ <;>
          simp [hn]
      rcases run_own r k n hact with ⟨hth, hans, hups⟩ | ⟨i, hs⟩
      · unfold Progress at ih ⊢
        rw [hth, hans, hups]
        rcases ih with ⟨ha, hu, hq⟩ | ih
        · exact .inl ⟨ha, hu, hq.imp_right (.imp_right (.imp_right fun h ↦ ⟨h.1, by omega⟩))⟩
        · exact .inr ih
      · refine progress_own ih hs (hclient k) (fun hfree ↦ ?_) (hkeep k)
        by_contra hkb
        have hown := ((lockInv_reachable (r.reachable k)).owner u).mpr <| by
          rcases run_subscribe_pending r hsent ⟨_, hrec.1⟩ k (by omega) (by omega) with
            h' | ⟨_, h'⟩ <;> simp [h', holdsSubscribe]
        simp [hfree] at hown
  intro k hak
  rcases hprog k hak with ⟨ha, -, hq⟩ | ⟨ha, -, _, hn⟩ | ⟨ha, hu, hn⟩
  · refine ⟨by simp [ha], fun hf ↦ ?_⟩
    rcases hq with ⟨txn, hn, -⟩ | hn | hn | ⟨hn, -⟩ <;> simp [hn] at hf
  · exact ⟨by simp [ha], fun hf ↦ by simp [hn] at hf⟩
  · exact ⟨by simp [ha], fun _ ↦ ⟨ha, hu⟩⟩

/-- Spec scenario 4: the NOTIFY for `uuid:xyz` arrives while the SUBSCRIBE exchange that
returns that SID is still under way, finds no entry and waits on the mutex. -/
def raceNotify : Transaction where
  headers := [("sid", "uuid:xyz"), ("seq", "0"), ("nt", "upnp:event"), ("nts", "upnp:propchange")]
  xmlContent := true
  postdata := "<e:propertyset><e:property><Foo>1</Foo></e:property></e:propertyset>"
  events := some [.startElement "e:propertyset", .startElement "e:property",
    .startElement "Foo", .characterData "1", .endElement "Foo", .endElement "e:property",
    .endElement "e:propertyset"]

def raceSchedule : List Move :=
  let answer : Input :=
    ⟨.response 200 [("sid", "uuid:xyz"), ("timeout", "Second-1800")], .success⟩
  [.call (.subscribe 1 "http://10.0.0.5:49152/evt" 1800), .run 0 answer, .run 0 answer,
    .call (.notify raceNotify), .run 1 answer, .run 1 answer, .run 0 answer, .run 0 answer,
    .run 1 answer, .run 1 answer, .run 1 answer]

def raceRun : Run sampleConfig :=
  Run.ofExec sampleConfig raceSchedule (Gena.initial (some 1)) ⟨some 1, .refl⟩ rfl

theorem notify_overtaking_subscribe_scenario :
    (raceRun.state 11).threads 0 = .subscribed .success "uuid:xyz" 1800 ∧
    (raceRun.state 11).threads 1 = .finished ∧ answers (raceRun.state 11) 1 = [200] ∧
    upcallsOf (raceRun.state 11) 1 = [.eventReceived "uuid:xyz" 0 [("Foo", "1")]] := by
  have hkeep : ∀ k, 7 < k → quiet ((raceRun.state k).threads 1) →
      HasSid (raceRun.state k) "uuid:xyz" := by
    intro k hk hq
    rcases (show k = 8 ∨ k = 9 ∨ k = 10 ∨ 11 ≤ k by omega) with rfl | rfl | rfl | hk
    any_goals exact ⟨_, List.mem_cons_self _ _, rfl⟩
    rw [raceRun, Run.ofExec_state_of_le hk] at hq
    exact absurd hq (by decide)
  exact ⟨rfl, rfl, @notify_overtaking_subscribe_admitted _ raceRun 4 3 7 1 0
    _ _ _ _ _ _ (.inl rfl) (.inl ⟨raceNotify, rfl, by decide⟩) (by omega) ⟨rfl, rfl⟩ hkeep 11
    (by omega) |>.2 rfl⟩

/-- The race of `raceSchedule` until `uuid:xyz` is recorded, the handler waiting for the mutex; then
the deadlock of `deadlockSchedule` between a second subscribe on handle 1 and one on handle 2. -/
def blockedSchedule : List Move :=
  let url := "http://10.0.0.5:49152/evt"
  let answer : Input :=
    ⟨.response 200 [("sid", "uuid:xyz"), ("timeout", "Second-1800")], .success⟩
  [.call (.subscribe 1 url 1800), .run 0 answer, .run 0 answer,
    .call (.notify raceNotify), .run 1 answer, .run 1 answer, .run 0 answer, .run 0 answer,
    .call (.subscribe 1 url 1800), .run 2 answer, .run 2 answer, .run 2 answer,
    .call (.subscribe 2 url 1800), .run 3 answer]

def blockedRun : Run sampleConfig :=
  Run.ofExec sampleConfig blockedSchedule (Gena.initial (some 1)) ⟨some 1, .refl⟩ rfl

theorem step_logs {cfg : Config} {s s' : Gena} (h : Step cfg s s') :
    (∃ l, s'.responses = s.responses ++ l) ∧ ∃ l, s'.upcalls = s.upcalls ++ l := by
  cases h with
  | call _ | fire _ _ => exact ⟨⟨[], by simp [Gena.spawn]⟩, [], by simp [Gena.spawn]⟩
  | run _ t i h =>
    obtain ⟨⟨l, hl, -⟩, u, hu, -⟩ := stepProc_tagged h
    exact ⟨⟨l, hl⟩, u, hu⟩

theorem silent_before {cfg : Config} {s s' : Gena} {n : Nat}
    (h : Relation.ReflTransGen (Step cfg) s s') (ha : answers s' n = [])
    (hu : upcallsOf s' n = []) : answers s n = [] ∧ upcallsOf s n = [] := by
  induction h with
  | refl => exact ⟨ha, hu⟩
  | tail _ hs ih =>
    obtain ⟨⟨l, hl⟩, u, hu'⟩ := step_logs hs
    simp only [answers, upcallsOf, hl, hu', List.filter_append, List.map_append,
      List.append_eq_nil] at ha hu
    exact ih ha.1 hu.1

/-- Every run that starts with `blockedSchedule` meets the admission theorem's conditions, yet its
handler never answers nor calls back: from position 14 on it waits for the deadlocked mutex. -/
theorem notify_overtaking_subscribe_blocked (r : Run sampleConfig)
    (hr : ∀ k ≤ blockedSchedule.length, r.state k = blockedRun.state k) :
    (r.state 3).threads 0 = .subscribeRequest 1 "http://10.0.0.5:49152/evt" 1800 ∧
    (r.state 4).threads 1 = .notifyEntry raceNotify ∧
    validateNotification raceNotify = .proceed "uuid:xyz" 0 [("Foo", "1")] ∧
    (r.state 7).threads 0 =
      .subscribeRecord 1 "http://10.0.0.5:49152/evt" 1800 (.ok "uuid:xyz" 1800) ∧
    (r.state 7).client = some 1 ∧
    (∀ k, 7 < k → HasSid (r.state k) "uuid:xyz") ∧
    ∀ k, answers (r.state k) 1 = [] ∧ upcallsOf (r.state k) 1 = [] ∧
      (14 ≤ k → (r.state k).threads 1 = .notifyRetry "uuid:xyz" 0 [("Foo", "1")] ∧
        ∀ i, stepProc sampleConfig i 1 (r.state k) = none) := by
  have h14 := hr 14 (by decide)
  have hc : CyclicWait (r.state 14) 3 2 := by
    rw [h14]
    exact ⟨.head _, rfl, rfl, rfl⟩
  have hn14 : (r.state 14).threads 1 = .notifyRetry "uuid:xyz" 0 [("Foo", "1")] := by
    rw [h14]; rfl
  have hfz := fun k (hk : 14 ≤ k) ↦ cyclicWait_forever (r.reachable 14) hc (r.steps hk)
  have hn : ∀ k, 14 ≤ k → (r.state k).threads 1 = .notifyRetry "uuid:xyz" 0 [("Foo", "1")] :=
    fun k hk ↦ ((hfz k hk).2.2 1 (.inl (by rw [hn14]; rfl))).trans hn14
  have hlog : ∀ k, 14 ≤ k → answers (r.state k) 1 = [] ∧ upcallsOf (r.state k) 1 = [] :=
    fun k hk ↦ (logInv_reachable (r.reachable k)).quiet 1 (by rw [hn k hk]; rfl)
  refine ⟨by rw [hr 3 (by decide)]; rfl, by rw [hr 4 (by decide)]; rfl, by decide,
    by rw [hr 7 (by decide)]; rfl, by rw [hr 7 (by decide)]; rfl, fun k hk ↦ ?_, fun k ↦ ?_⟩
  · rw [HasSid]
    by_cases h : 14 ≤ k
    · rw [(hfz k h).2.1, h14]
      exact ⟨_, .head _, rfl⟩
    · obtain ⟨j, rfl⟩ : ∃ j, k = j + 8 := ⟨k - 8, by omega⟩
      rcases j with _ | _ | _ | _ | _ | _ | j
      all_goals try (rw [hr _ (by decide)]; exact ⟨_, .head _, rfl⟩)
      omega
  · have hsil : answers (r.state k) 1 = [] ∧ upcallsOf (r.state k) 1 = [] := by
      rcases le_total 14 k with h | h
      · exact hlog k h
      · exact silent_before (r.steps h) (hlog 14 le_rfl).1 (hlog 14 le_rfl).2
    exact ⟨hsil.1, hsil.2, fun h ↦ ⟨hn k h, fun i ↦ stepProc_waitsSubscribe
      (by rw [hn k h]; rfl) (by simp [(hfz k h).1.2.2.1])⟩⟩

theorem notify_overtaking_subscribe_blocked_run :
    (∀ k ≤ blockedSchedule.length, blockedRun.state k = blockedRun.state k) ∧
    (blockedRun.state 3).threads 0 = .subscribeRequest 1 "http://10.0.0.5:49152/evt" 1800 ∧
    (blockedRun.state 4).threads 1 = .notifyEntry raceNotify ∧
    validateNotification raceNotify = .proceed "uuid:xyz" 0 [("Foo", "1")] ∧
    (blockedRun.state 7).threads 0 =
      .subscribeRecord 1 "http://10.0.0.5:49152/evt" 1800 (.ok "uuid:xyz" 1800) ∧
    (blockedRun.state 7).client = some 1 ∧
    (∀ k, 7 < k → HasSid (blockedRun.state k) "uuid:xyz") ∧
    ∀ k, answers (blockedRun.state k) 1 = [] ∧ upcallsOf (blockedRun.state k) 1 = [] ∧
      (14 ≤ k → (blockedRun.state k).threads 1 = .notifyRetry "uuid:xyz" 0 [("Foo", "1")] ∧
        ∀ i, stepProc sampleConfig i 1 (blockedRun.state k) = none) :=
  ⟨fun _ _ ↦ rfl, notify_overtaking_subscribe_blocked blockedRun fun _ _ ↦ rfl⟩

end Npupnp.Gena.Race
