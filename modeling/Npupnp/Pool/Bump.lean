import Mathlib.Logic.Relation
import Npupnp.Pool.Queues

namespace Npupnp.Pool.Bump

open Machine Queues

/-- What the loop of `bumpPriority` has left to do: a low job can still move twice, a medium
one once. -/
def bumpMeasure (s : Pool) : Nat :=
  2 * s.lowJobQ.length + s.medJobQ.length

def Passes : Pool → Pool → Prop :=
  Relation.ReflTransGen fun a b ↦ bumpOnce a = some b

variable {s s' : Pool}

theorem bumpLow_eq_some (h : bumpLow s = some s') :
    ∃ j low, s.lowJobQ = j :: low ∧ s.attr.maxIdleTime ≤ s.now - j.requestTime ∧
      s' = { s with medJobQ := s.medJobQ ++ [j], lowJobQ := low } := by
  unfold bumpLow at h
  split at h
  · split_ifs at h with hj
    exact ⟨_, _, ‹_›, hj, (Option.some.inj h).symm⟩
  · cases h

theorem bumpOnce_cases (h : bumpOnce s = some s') :
    (∃ j med, s.medJobQ = j :: med ∧ s.attr.starvationTime ≤ s.now - j.requestTime ∧
        s' = { s with highJobQ := s.highJobQ ++ [j], medJobQ := med }) ∨
      ((∀ j ∈ s.medJobQ.head?, s.now - j.requestTime < s.attr.starvationTime) ∧
        ∃ j low, s.lowJobQ = j :: low ∧ s.attr.maxIdleTime ≤ s.now - j.requestTime ∧
          s' = { s with medJobQ := s.medJobQ ++ [j], lowJobQ := low }) := by
  unfold bumpOnce at h
  split at h
  · rename_i j med hm
    split_ifs at h with hj
    · exact .inl ⟨j, med, hm, hj, (Option.some.inj h).symm⟩
    · exact .inr ⟨by simpa [hm] using hj, bumpLow_eq_some h⟩
  · rename_i hm
    exact .inr ⟨by simp [hm], bumpLow_eq_some h⟩

theorem bumpOnce_eq_none (h : bumpOnce s = none) :
    (∀ j ∈ s.medJobQ.head?, s.now - j.requestTime < s.attr.starvationTime) ∧
      ∀ j ∈ s.lowJobQ.head?, s.now - j.requestTime < s.attr.maxIdleTime := by
  have hlow (hl : bumpLow s = none) : ∀ j ∈ s.lowJobQ.head?,
      s.now - j.requestTime < s.attr.maxIdleTime := by
    unfold bumpLow at hl
    split at hl
    · rename_i j low hj
      split_ifs at hl with hi
      simpa [hj] using hi
    · rename_i hj
      simp [hj]
  unfold bumpOnce at h
  split at h
  · rename_i j med hm
    split_ifs at h with hj
    exact ⟨by simpa [hm] using hj, hlow h⟩
  · rename_i hm
    exact ⟨by simp [hm], hlow h⟩

theorem bumpMeasure_bumpOnce (h : bumpOnce s = some s') :
    bumpMeasure s' + 1 = bumpMeasure s := by
  rcases bumpOnce_cases h with ⟨j, med, hm, -, rfl⟩ | ⟨-, j, low, hl, -, rfl⟩
  · simp only [bumpMeasure, hm, List.length_cons]
    omega
  · simp only [bumpMeasure, hl, List.length_cons, List.length_append, List.length_nil]
    omega

theorem passes_bumpLoop (n : Nat) (s : Pool) : Passes s (bumpLoop n s) := by
  induction n generalizing s with
  | zero => exact .refl
  | succ n ih =>
    unfold bumpLoop
    split
    · rename_i s₁ h
      exact .head h (ih s₁)
    · exact .refl

theorem Passes.mono (h : Passes s s') :
    s'.now = s.now ∧ s'.attr = s.attr ∧ s.highJobQ <+: s'.highJobQ ∧
      s'.lowJobQ <:+ s.lowJobQ := by
  induction h with
  | refl => exact ⟨rfl, rfl, List.prefix_refl _, List.suffix_refl _⟩
  | tail _ hbc ih =>
    obtain ⟨h1, h2, h3, h4⟩ := ih
    rcases bumpOnce_cases hbc with ⟨j, med, -, -, rfl⟩ | ⟨-, j, low, hl, -, rfl⟩
    · exact ⟨h1, h2, h3.trans (List.prefix_append _ _), h4⟩
    · exact ⟨h1, h2, h3, (hl ▸ List.suffix_cons j low).trans h4⟩

theorem bumpLoop_exit (n : Nat) (s : Pool) (hn : bumpMeasure s < n) :
    bumpOnce (bumpLoop n s) = none := by
  induction n generalizing s with
  | zero => omega
  | succ n ih =>
    unfold bumpLoop
    cases h : bumpOnce s with
    | none => exact h
    | some s₁ => exact ih s₁ (by have := bumpMeasure_bumpOnce h; omega)

theorem bumpLoop_stable (n m : Nat) (s : Pool) (hn : bumpMeasure s < n)
    (hm : bumpMeasure s < m) : bumpLoop n s = bumpLoop m s := by
  induction n generalizing s m with
  | zero => omega
  | succ n ih =>
    obtain ⟨m, rfl⟩ : ∃ m', m = m' + 1 := ⟨m - 1, by omega⟩
    unfold bumpLoop
    cases h : bumpOnce s with
    | none => rfl
    | some s₁ =>
      have := bumpMeasure_bumpOnce h
      exact ih m s₁ (by omega) (by omega)

theorem bumpMeasure_lt_fuel (s : Pool) :
    bumpMeasure s < 2 * (s.medJobQ.length + s.lowJobQ.length) + 1 := by
  unfold bumpMeasure
  omega

/-- Each pass of `bumpPriority` moves one starved front job one queue up and lowers `bumpMeasure`,
so the loop ends with no starved front; the queues read high to low stay the same list. -/
theorem bump_priority_transfer :
    (∀ s s' : Pool, bumpOnce s = some s' →
      ((∃ j med, s.medJobQ = j :: med ∧ s.attr.starvationTime ≤ s.now - j.requestTime ∧
          s' = { s with highJobQ := s.highJobQ ++ [j], medJobQ := med }) ∨
        ((∀ j ∈ s.medJobQ.head?, s.now - j.requestTime < s.attr.starvationTime) ∧
          ∃ j low, s.lowJobQ = j :: low ∧ s.attr.maxIdleTime ≤ s.now - j.requestTime ∧
            s' = { s with medJobQ := s.medJobQ ++ [j], lowJobQ := low })) ∧
      bumpMeasure s' < bumpMeasure s) ∧
    ∀ s : Pool, Passes s (bumpPriority s) ∧
      (∀ fuel, bumpMeasure s < fuel → bumpLoop fuel s = bumpPriority s) ∧
      bumpOnce (bumpPriority s) = none ∧
      (bumpPriority s).highJobQ ++ (bumpPriority s).medJobQ ++ (bumpPriority s).lowJobQ =
        s.highJobQ ++ s.medJobQ ++ s.lowJobQ ∧
      s.highJobQ <+: (bumpPriority s).highJobQ ∧ (bumpPriority s).lowJobQ <:+ s.lowJobQ ∧
      (∀ j ∈ (bumpPriority s).medJobQ.head?, s.now - j.requestTime < s.attr.starvationTime) ∧
      ∀ j ∈ (bumpPriority s).lowJobQ.head?, s.now - j.requestTime < s.attr.maxIdleTime := by
  refine ⟨fun s s' h ↦ ⟨bumpOnce_cases h, by have := bumpMeasure_bumpOnce h; omega⟩,
    fun s ↦ ?_⟩
  have hexit := bumpLoop_exit _ s (bumpMeasure_lt_fuel s)
  obtain ⟨hnow, hattr, hhigh, hlow⟩ := (passes_bumpLoop _ s).mono
  obtain ⟨hmed, hlow'⟩ := bumpOnce_eq_none hexit
  rw [hnow, hattr] at hmed hlow'
  exact ⟨passes_bumpLoop _ s, fun fuel hf ↦ bumpLoop_stable _ _ s hf (bumpMeasure_lt_fuel s),
    hexit, (bumped_bumpLoop _ s).1, hhigh, hlow, hmed, hlow'⟩

example : (bumpPriority { Pool.initial ⟨0, 1, 100, 10, 10, 500⟩ with
    lowJobQ := [⟨1, .low, 0, 0⟩], now := 1000 }).highJobQ = [⟨1, .low, 0, 0⟩] := by
  decide

end Npupnp.Pool.Bump
