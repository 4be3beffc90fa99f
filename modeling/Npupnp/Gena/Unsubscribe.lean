import Npupnp.Gena.Race

namespace Npupnp.Gena.Unsubscribe

open Basic Machine Race

def Unsubscribing (h : Nat) (x : String) (p : Proc) : Prop :=
  p = .unsubscribeEntry h x ∨ (∃ copy, p = .unsubscribeRequest h x copy) ∨
    p = .unsubscribeRemove h x ∨ ∃ rc, p = .returned rc

theorem stepProc_unsubscribeRemove {cfg : Config} {i : Input} {t h : Nat} {x : String}
    {s s' : Gena} (hp : s.threads t = .unsubscribeRemove h x)
    (hs : stepProc cfg i t s = some s') :
    (s'.threads t = .returned .success ∧ s'.subs = removeSid s.subs x) ∨
      s'.threads t = .returned .badHandle := by
  simp only [stepProc, hp] at hs
  split at hs
  · split at hs <;> cases hs
    · exact .inl ⟨by simp, rfl⟩
    · exact .inr (by simp)
  · cases hs

theorem stepProc_unsubscribing {cfg : Config} {i : Input} {t h : Nat} {x : String}
    {s s' : Gena} (hp : Unsubscribing h x (s.threads t)) (hs : stepProc cfg i t s = some s') :
    Unsubscribing h x (s'.threads t) := by
  rcases hp with hp | ⟨copy, hp⟩ | hp | ⟨rc, hp⟩
  · simp only [stepProc, hp] at hs
    split at hs
    · split at hs
      · split at hs <;> cases hs
        · exact .inr (.inr (.inr ⟨.badSid, by simp⟩))
        · exact .inr (.inl ⟨_, by simp; rfl⟩)
      · cases hs
        exact .inr (.inr (.inr ⟨.badHandle, by simp⟩))
    · cases hs
  · simp only [stepProc, hp, Option.some.injEq] at hs
    subst hs
    exact .inr (.inr (.inl (by simp)))
  · rcases stepProc_unsubscribeRemove hp hs with ⟨h', -⟩ | h' <;> exact .inr (.inr (.inr ⟨_, h'⟩))
  · rw [stepProc_of_terminal (by simp [hp, terminal])] at hs
    cases hs

theorem run_unsubscribing {cfg : Config} (r : Run cfg) {a t h : Nat} {x : String}
    (ha : (r.state a).threads t = .unsubscribeEntry h x) {k : Nat} (hak : a ≤ k) :
    Unsubscribing h x ((r.state k).threads t) :=
  run_stays r _ (by simp [Unsubscribing]) stepProc_unsubscribing (.inl ha) hak

theorem stepProc_unsubscribe_success {cfg : Config} {i : Input} {t h : Nat} {x : String}
    {s s' : Gena} (hp : Unsubscribing h x (s.threads t)) (hs : stepProc cfg i t s = some s')
    (hret : s'.threads t = .returned .success) : ¬ HasSid s' x := by
  rcases hp with hp | ⟨copy, hp⟩ | hp | ⟨rc, hp⟩
  · simp only [stepProc, hp] at hs
    repeat' split at hs
    all_goals cases hs <;> simp at hret
  · simp only [stepProc, hp, Option.some.injEq] at hs
    simp [← hs] at hret
  · rcases stepProc_unsubscribeRemove hp hs with ⟨-, hsubs⟩ | h'
    · rintro ⟨e, he, rfl⟩
      rw [hsubs] at he
      simp at he
    · simp [h'] at hret
  · rw [stepProc_of_terminal (by simp [hp, terminal])] at hs
    cases hs

/-- Where `genaUnSubscribe(h, x)` returns `GENA_SUCCESS`, the table holds no entry with SID
`x`, whatever ran in between. -/
theorem unsubscribe_success_removes_sid {cfg : Config} (r : Run cfg) (a k t h : Nat)
    (x : String) (ha : (r.state a).threads t = .unsubscribeEntry h x) (hak : a ≤ k)
    (hret : (r.state (k + 1)).threads t = .returned .success)
    (hbefore : (r.state k).threads t ≠ .returned .success) :
    ¬ HasSid (r.state (k + 1)) x := by
  have hp := run_unsubscribing r ha hak
  have hact : (r.state k).threads t ≠ .idle := by
    rcases hp with h' | ⟨_, h'⟩ | h' | ⟨_, h'⟩ <;> simp [h']
  rcases run_own r k t hact with ⟨h', -⟩ | ⟨i, hs⟩
  · exact absurd (h' ▸ hret) hbefore
  · exact stepProc_unsubscribe_success hp hs hret

/-- `genaUnSubscribe(1, "uuid:x")` takes its snapshot, then a renewal of `uuid:x` answered with the
new SID `uuid:y` runs to completion before the unsubscribe finishes. -/
def renamedDuringUnsubscribe : List Move :=
  let url := "http://10.0.0.5:49152/evt"
  let answer (sid : String) : Input :=
    ⟨.response 200 [("sid", sid), ("timeout", "Second-1800")], .success⟩
  [.call (.subscribe 1 url 1800), .run 0 (answer "uuid:x"), .run 0 (answer "uuid:x"),
    .run 0 (answer "uuid:x"), .run 0 (answer "uuid:x"), .call (.unsubscribe 1 "uuid:x"),
    .run 1 (answer "uuid:x"), .call (.renew 1 "uuid:x" 1800), .run 2 (answer "uuid:y"),
    .run 2 (answer "uuid:y"), .run 2 (answer "uuid:y"), .run 1 (answer "uuid:x"),
    .run 1 (answer "uuid:x")]

theorem unsubscribe_leaves_renamed_entry :
    ∃ s, exec sampleConfig renamedDuringUnsubscribe (Gena.initial (some 1)) = some s ∧
      s.threads 1 = .returned .success ∧ s.threads 2 = .renewed .success 1800 ∧
      s.subs.map (·.sid) = ["uuid:y"] ∧ s.events.map (·.sub.sid) = ["uuid:y"] :=
  ⟨_, rfl, rfl, rfl, rfl, rfl⟩

def renamedRun : Run sampleConfig :=
  Run.ofExec sampleConfig renamedDuringUnsubscribe (Gena.initial (some 1)) ⟨some 1, .refl⟩ rfl

theorem unsubscribe_success_removes_sid_renamed :
    (renamedRun.state 6).threads 1 = .unsubscribeEntry 1 "uuid:x" ∧
      (renamedRun.state 13).threads 1 = .returned .success ∧
      ¬ HasSid (renamedRun.state 13) "uuid:x" :=
  ⟨rfl, rfl, unsubscribe_success_removes_sid renamedRun 6 12 1 1 "uuid:x" rfl (by omega) rfl
    (by decide)⟩

end Npupnp.Gena.Unsubscribe
