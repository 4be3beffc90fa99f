import Mathlib.Data.List.Infix
import Npupnp.Uri.Resolve

namespace Npupnp.Uri.Dots

open Resolve

section Segments

def ofSegments (segs : List (List Char)) : List Char :=
  (segs.map ('/' :: ·)).flatten

@[simp] theorem ofSegments_nil : ofSegments [] = [] := rfl

@[simp] theorem ofSegments_cons (s : List Char) (segs : List (List Char)) :
    ofSegments (s :: segs) = '/' :: (s ++ ofSegments segs) := rfl

theorem ofSegments_append (segs segs' : List (List Char)) :
    ofSegments (segs ++ segs') = ofSegments segs ++ ofSegments segs' := by
  simp [ofSegments]

theorem ofSegments_reverse_cons (s : List Char) (vpath : List (List Char)) :
    ofSegments (s :: vpath).reverse = ofSegments vpath.reverse ++ '/' :: s := by
  simp [ofSegments_append]

def endsInDir (segs : List (List Char)) : Bool :=
  match segs.getLast? with
  | some s => s = [] || s = ['.'] || s = ['.', '.']
  | none => false

@[simp] theorem endsInDir_cons_cons (s t : List Char) (ts : List (List Char)) :
    endsInDir (s :: t :: ts) = endsInDir (t :: ts) := by
  simp [endsInDir, List.getLast?_cons_cons]

theorem popDots_dot (vpath elts : List (List Char)) :
    popDots vpath (['.'] :: elts) = popDots vpath elts := by
  simp [popDots]

theorem popDots_dotdot (v : List Char) (vpath elts : List (List Char)) :
    popDots (v :: vpath) (['.', '.'] :: elts) = popDots vpath elts := by
  simp [popDots]

theorem popDots_push {s : List Char} (h0 : s ≠ []) (h1 : s ≠ ['.']) (h2 : s ≠ ['.', '.'])
    (vpath elts : List (List Char)) : popDots vpath (s :: elts) = popDots (s :: vpath) elts := by
  simp [popDots, h0, h1, h2]

end Segments

section Rfc

theorem loop_segment {s rest out : List Char} (fuel : Nat) (hs : '/' ∉ s) (hd : s ≠ ['.'])
    (hdd : s ≠ ['.', '.']) (hr : rest.head? = none ∨ rest.head? = some '/') :
    removeDotSegmentsLoop (fuel + 1) ('/' :: (s ++ rest)) out =
      removeDotSegmentsLoop fuel rest (out ++ '/' :: s) := by
  have hp : ∀ x ∈ s, decide (x ≠ '/') = true := fun x hx ↦ decide_eq_true fun e ↦ hs (e ▸ hx)
  have hrest : rest.takeWhile (· ≠ '/') = [] ∧ rest.dropWhile (· ≠ '/') = rest := by
    rcases rest with _ | ⟨c, rest⟩
    · exact ⟨rfl, rfl⟩
    · obtain rfl : c = '/' := by simpa using hr
      simp
  have ht : (s ++ rest).takeWhile (· ≠ '/') = s := by
    rw [List.takeWhile_append_of_pos hp, hrest.1, List.append_nil]
  rw [removeDotSegmentsLoop]
  · rw [ht, List.dropWhile_append_of_pos hp, hrest.2]
  -- the rules for `.` and `..` would read `s` up to its first `/` as `.` or `..`
  all_goals
    intros
    rename_i h
    rw [h] at ht
    simp at ht
    first | exact hd ht.symm | exact hdd ht.symm

theorem loop_nil (fuel : Nat) (out : List Char) : removeDotSegmentsLoop fuel [] out = out := by
  cases fuel <;> rfl

theorem loop_slash (fuel : Nat) (out : List Char) :
    removeDotSegmentsLoop (fuel + 1) ['/'] out = out ++ ['/'] := by
  rw [removeDotSegmentsLoop] <;> simp [loop_nil]

theorem loop_last {s out : List Char} (fuel : Nat) (hs : '/' ∉ s) :
    removeDotSegmentsLoop (fuel + 2) ('/' :: s) out =
      if s = ['.'] then out ++ ['/'] else if s = ['.', '.'] then dropLastSegment out ++ ['/']
      else out ++ '/' :: s := by
  split_ifs with h1 h2
  · subst h1
    rw [removeDotSegmentsLoop, loop_slash]
  · subst h2
    rw [removeDotSegmentsLoop, loop_slash]
  · have := @loop_segment s [] out (fuel + 1) hs h1 h2 (.inl rfl)
    rw [List.append_nil] at this
    rw [this, loop_nil]

theorem dropLastSegment_ofSegments (segs : List (List Char)) {s : List Char} (hs : '/' ∉ s) :
    dropLastSegment (ofSegments (segs ++ [s])) = ofSegments segs := by
  have hp : ∀ x ∈ s.reverse, (!decide (x = '/')) = true := fun x hx ↦ by
    simp only [Bool.not_eq_true', decide_eq_false_iff_not]
    rintro rfl
    exact hs (List.mem_reverse.1 hx)
  simp [dropLastSegment, ofSegments_append, List.dropWhile_append_of_pos hp]

theorem loop_ofSegments {segs : List (List Char)} (hsl : ∀ s ∈ segs, '/' ∉ s)
    (hne : ∀ s ∈ segs.dropLast, s ≠ []) (hseg : segs ≠ []) :
    ∀ (fuel : Nat) (vpath V : List (List Char)), (∀ v ∈ vpath, '/' ∉ v) →
      (ofSegments segs).length ≤ fuel → popDots vpath segs = some V →
      removeDotSegmentsLoop fuel (ofSegments segs) (ofSegments vpath.reverse) =
        ofSegments V.reverse ++ if endsInDir segs then ['/'] else [] := by
  induction segs with
  | nil => exact absurd rfl hseg
  | cons s ss ih =>
    intro fuel vpath V hv hf hV
    have hs : '/' ∉ s := hsl s (.head _)
    rcases ss with _ | ⟨t, ts⟩
    · simp only [ofSegments_cons, ofSegments_nil, List.append_nil, List.length_cons] at hf ⊢
      by_cases h0 : s = []
      · subst h0
        obtain ⟨f, rfl⟩ : ∃ f, fuel = f + 1 := ⟨fuel - 1, by simp at hf; omega⟩
        cases hV
        simp [loop_slash, endsInDir]
      obtain ⟨f, rfl⟩ : ∃ f, fuel = f + 2 := ⟨fuel - 2, by have := List.length_pos.2 h0; omega⟩
      rw [loop_last f hs]
      by_cases h1 : s = ['.']
      · subst h1
        rw [popDots_dot] at hV
        cases hV
        simp [endsInDir]
      by_cases h2 : s = ['.', '.']
      · subst h2
        rcases vpath with _ | ⟨v, vp⟩
        · simp [popDots] at hV
        rw [popDots_dotdot] at hV
        cases hV
        rw [List.reverse_cons, dropLastSegment_ofSegments _ (hv v (.head _))]
        simp [endsInDir]
      · rw [popDots_push h0 h1 h2] at hV
        cases hV
        simp [ofSegments_append, endsInDir, h0, h1, h2]
    · have h0 : s ≠ [] := hne s (by simp)
      have ih' := ih (fun u hu ↦ hsl u (.tail _ hu))
        (fun u hu ↦ hne u (by simp [List.dropLast_cons_of_ne_nil, hu])) (List.cons_ne_nil _ _)
      obtain ⟨f, rfl⟩ : ∃ f, fuel = f + 1 := ⟨fuel - 1, by simp at hf; omega⟩
      have hf' : (ofSegments (t :: ts)).length ≤ f := by simp at hf ⊢; omega
      rw [endsInDir_cons_cons, ofSegments_cons]
      by_cases h1 : s = ['.']
      · subst h1
        rw [popDots_dot] at hV
        rw [ofSegments_cons, List.singleton_append, removeDotSegmentsLoop]
        exact ih' _ _ _ hv hf' hV
      by_cases h2 : s = ['.', '.']
      · subst h2
        rcases vpath with _ | ⟨v, vp⟩
        · simp [popDots] at hV
        rw [popDots_dotdot] at hV
        rw [ofSegments_cons, List.cons_append, List.singleton_append, removeDotSegmentsLoop,
          List.reverse_cons, dropLastSegment_ofSegments _ (hv v (.head _))]
        exact ih' _ _ _ (fun u hu ↦ hv u (.tail _ hu)) hf' hV
      · rw [popDots_push h0 h1 h2] at hV
        rw [@loop_segment s (ofSegments (t :: ts)) _ f hs h1 h2 (.inr rfl),
          ← ofSegments_reverse_cons]
        refine ih' _ _ _ ?_ hf' hV
        rintro u (_ | ⟨_, hu⟩)
        exacts [hs, hv u hu]

end Rfc

section RemoveDots

theorem dotElements_append {s : List Char} (h : ∀ x ∈ s, x ≠ '/' ∧ x ≠ '?')
    (acc rest : List Char) : dotElements acc (s ++ rest) = dotElements (s.reverse ++ acc) rest := by
  induction s generalizing acc with
  | nil => rfl
  | cons c s ih =>
    obtain ⟨h1, h2⟩ := h c (.head _)
    rw [List.cons_append, dotElements, ih fun x hx ↦ h x (.tail _ hx)]
    · simp
    all_goals simp_all

theorem dotElements_ofSegments {segs : List (List Char)}
    (h : ∀ s ∈ segs, ∀ x ∈ s, x ≠ '/' ∧ x ≠ '?') (acc : List Char) :
    dotElements acc (ofSegments segs) = acc.reverse :: segs := by
  induction segs generalizing acc with
  | nil => rfl
  | cons s segs ih =>
    rw [ofSegments_cons, dotElements, dotElements_append (h s (.head _)),
      ih (fun t ht ↦ h t (.tail _ ht)), List.append_nil, List.reverse_reverse]

theorem popDots_append (vpath : List (List Char)) (segs segs' : List (List Char)) :
    popDots vpath (segs ++ segs') = (popDots vpath segs).bind (popDots · segs') := by
  induction segs generalizing vpath with
  | nil => rfl
  | cons s segs ih =>
    simp only [List.cons_append, popDots]
    split_ifs
    · exact ih vpath
    · cases vpath with
      | nil => rfl
      | cons _ v => exact ih v
    · exact ih _

theorem mem_of_popDots {vpath segs V : List (List Char)} (h : popDots vpath segs = some V) :
    ∀ v ∈ V, v ∈ vpath ∨ (v ∈ segs ∧ v ≠ []) := by
  induction segs generalizing vpath with
  | nil => cases h; exact fun v hv ↦ .inl hv
  | cons s segs ih =>
    simp only [popDots] at h
    split_ifs at h with h0 h1
    · exact fun v hv ↦ (ih h v hv).imp_right fun hv ↦ ⟨.tail _ hv.1, hv.2⟩
    · cases vpath with
      | nil => cases h
      | cons _ vp =>
        exact fun v hv ↦ (ih h v hv).imp (.tail _) fun hv ↦ ⟨.tail _ hv.1, hv.2⟩
    · intro v hv
      rcases ih h v hv with hv | hv
      · rcases List.mem_cons.1 hv with rfl | hv
        · exact .inr ⟨.head _, fun h ↦ h0 (.inl h)⟩
        · exact .inl hv
      · exact .inr ⟨.tail _ hv.1, hv.2⟩

/-- No `..` segment climbs above the start of the path, `depth` being how many segments are
left to climb. -/
def climbFree : Nat → List (List Char) → Bool
  | _, [] => true
  | depth, s :: segs =>
    if s = [] ∨ s = ['.'] then climbFree depth segs
    else if s = ['.', '.'] then depth ≠ 0 && climbFree (depth - 1) segs
    else climbFree (depth + 1) segs

theorem popDots_isSome {segs : List (List Char)} :
    ∀ vpath : List (List Char), climbFree vpath.length segs = true →
      (popDots vpath segs).isSome := by
  induction segs with
  | nil => intros; rfl
  | cons s segs ih =>
    intro vpath h
    simp only [climbFree] at h
    simp only [popDots]
    split_ifs at h ⊢ with h0 h1
    · exact ih vpath h
    · cases vpath with
      | nil => simp at h
      | cons _ vp => exact ih vp (by simpa using h)
    · exact ih (s :: vpath) h

theorem slash_flatten (vs : List (List Char)) :
    ['/'] ++ (vs.map (· ++ ['/'])).flatten = ofSegments vs ++ ['/'] := by
  induction vs with
  | nil => rfl
  | cons v vs ih =>
    simp only [List.map_cons, List.flatten_cons, ofSegments_cons, List.singleton_append,
      List.cons_append, List.nil_append, List.append_assoc] at ih ⊢
    rw [ih]

theorem ofSegments_eq_nil {segs : List (List Char)} : ofSegments segs = [] ↔ segs = [] := by
  cases segs <;> simp

theorem getLast?_ofSegments {segs : List (List Char)} (h : ∀ s ∈ segs, '/' ∉ s)
    (hne : segs ≠ []) : (ofSegments segs).getLast? = some '/' ↔ segs.getLast? = some [] := by
  obtain ⟨A, l, rfl⟩ : ∃ A l, segs = A ++ [l] :=
    ⟨_, _, (List.dropLast_append_getLast hne).symm⟩
  have hl := h l (List.mem_append_right _ (.head _))
  rw [ofSegments_append]
  rcases List.eq_nil_or_concat l with rfl | ⟨l, c, rfl⟩
  · simp
  · have hc : c ≠ '/' := by rintro rfl; simp at hl
    rw [List.concat_eq_append, ofSegments_cons, ofSegments_nil, List.append_nil,
      ← List.cons_append, ← List.append_assoc, List.getLast?_concat, List.getLast?_concat]
    simp [hc]

theorem removeDots_ofSegments {segs V : List (List Char)}
    (h : ∀ s ∈ segs, ∀ x ∈ s, x ≠ '/' ∧ x ≠ '?') (hne : segs ≠ [])
    (hV : popDots [] segs = some V) :
    removeDots (ofSegments segs) = if segs.getLast? ≠ some [] ∧ V ≠ [] then ofSegments V.reverse
      else ofSegments V.reverse ++ ['/'] := by
  have hsl : ∀ s ∈ segs, '/' ∉ s := fun s hs hx ↦ (h s hs _ hx).1 rfl
  have hlast := getLast?_ofSegments hsl hne
  have hhead : (ofSegments segs).head? = some '/' := by
    obtain ⟨s, segs, rfl⟩ := List.exists_cons_of_ne_nil hne
    rfl
  have hpop : popDots [] (dotElements [] (ofSegments segs)) = some V := by
    rw [dotElements_ofSegments h]
    exact hV
  unfold removeDots
  have hlen : 1 < (ofSegments V.reverse ++ ['/']).length ↔ V ≠ [] := by
    rw [List.length_append, List.length_singleton, Nat.lt_add_left_iff_pos, List.length_pos, Ne,
      ofSegments_eq_nil, List.reverse_eq_nil_iff]
  rw [if_neg (mt ofSegments_eq_nil.1 hne), hpop]
  simp only [hhead, if_true, slash_flatten, List.getLast?_concat, List.dropLast_concat, ne_eq,
    hlast, hlen, and_true]

end RemoveDots

section Paths

/-- Modelled from RFC 3986 §3.3: the segments of an absolute path, after its first `/`. -/
def segments (p : List Char) : List (List Char) :=
  (p.drop 1).splitOn '/'

theorem splitOn_cons_eq {x : Char} {xs : List Char} (hx : x ≠ '/') :
    ∃ h t, xs.splitOn '/' = h :: t ∧ (x :: xs).splitOn '/' = (x :: h) :: t := by
  obtain ⟨h, t, ht⟩ := List.exists_cons_of_ne_nil (List.splitOnP_ne_nil (· == '/') xs)
  refine ⟨h, t, ht, ?_⟩
  rw [List.splitOn, List.splitOnP_cons, if_neg (by simpa using hx), ht]
  rfl

theorem ofSegments_splitOn (rest : List Char) : ofSegments (rest.splitOn '/') = '/' :: rest := by
  induction rest with
  | nil => rfl
  | cons x xs ih =>
    by_cases hx : x = '/'
    · subst hx
      rw [List.splitOn, List.splitOnP_cons, if_pos (beq_self_eq_true _), ofSegments_cons,
        List.nil_append, ← List.splitOn, ih]
    · obtain ⟨h, t, ht, hxt⟩ := @splitOn_cons_eq x xs hx
      rw [ht, ofSegments_cons, List.cons.injEq] at ih
      rw [hxt, ofSegments_cons, List.cons_append, ih.2]

theorem not_mem_of_mem_splitOn {xs s : List Char} (hs : s ∈ xs.splitOn '/') : '/' ∉ s := by
  induction xs generalizing s with
  | nil => simp_all
  | cons x xs ih =>
    by_cases hx : x = '/'
    · subst hx
      rw [List.splitOn, List.splitOnP_cons, if_pos (beq_self_eq_true _), ← List.splitOn] at hs
      rcases List.mem_cons.1 hs with rfl | hs
      · simp
      · exact ih hs
    · obtain ⟨h, t, ht, hxt⟩ := @splitOn_cons_eq x xs hx
      rw [hxt] at hs
      rcases List.mem_cons.1 hs with rfl | hs
      · simpa [Ne.symm hx] using ih (ht ▸ List.mem_cons_self h t)
      · exact ih (ht ▸ List.mem_cons_of_mem h hs)

theorem mem_ofSegments {segs : List (List Char)} {s : List Char} {x : Char} (hs : s ∈ segs)
    (hx : x ∈ s) : x ∈ ofSegments segs := by
  simp only [ofSegments, List.mem_flatten, List.mem_map]
  exact ⟨_, ⟨s, hs, rfl⟩, .tail _ hx⟩

theorem ne_nil_of_no_double_slash {segs : List (List Char)}
    (h : ¬List.IsInfix ['/', '/'] (ofSegments segs)) : ∀ s ∈ segs.dropLast, s ≠ [] := by
  induction segs with
  | nil => simp
  | cons s segs ih =>
    rcases segs with _ | ⟨t, ts⟩
    · simp
    intro u hu
    rw [List.dropLast_cons_of_ne_nil (List.cons_ne_nil _ _)] at hu
    rcases List.mem_cons.1 hu with rfl | hu
    · rintro rfl
      exact h ⟨[], _, rfl⟩
    · refine ih (fun ⟨a, b, hab⟩ ↦ h ⟨'/' :: (s ++ a), b, ?_⟩) u hu
      rw [ofSegments_cons, ← hab]
      simp

theorem ofSegments_ne_slash {vs : List (List Char)} (h : ∀ v ∈ vs, v ≠ []) (hne : vs ≠ []) :
    ofSegments vs ≠ ['/'] := by
  obtain ⟨v, vs, rfl⟩ := List.exists_cons_of_ne_nil hne
  obtain ⟨c, v, rfl⟩ := List.exists_cons_of_ne_nil (h _ (.head _))
  simp

theorem popDots_last {A V : List (List Char)} {l : List Char} (h0 : l ≠ []) (h1 : l ≠ ['.'])
    (h2 : l ≠ ['.', '.']) (hV : popDots [] (A ++ [l]) = some V) : V ≠ [] := by
  rw [popDots_append] at hV
  obtain ⟨W, -, hW⟩ := Option.bind_eq_some.1 hV
  rw [popDots_push h0 h1 h2] at hW
  cases hW
  exact List.cons_ne_nil _ _

end Paths

/-- `remove_dots` agrees with RFC 3986 `remove_dot_segments` on absolute paths without `?`, `//` or
a climbing `..`, except for the `/` the RFC keeps after a last `.` or `..`. -/
theorem remove_dots_rfc_absolute {p : List Char} (habs : p.head? = some '/') (hq : '?' ∉ p)
    (hs : ¬List.IsInfix ['/', '/'] p) (hc : climbFree 0 (segments p) = true) :
    removeDotSegments p =
      if ((segments p).getLast? = some ['.'] ∨ (segments p).getLast? = some ['.', '.']) ∧
          removeDots p ≠ ['/'] then removeDots p ++ ['/']
      else removeDots p := by
  obtain ⟨rest, rfl⟩ := List.head?_eq_some_iff.1 habs
  have hsl : ∀ s ∈ segments ('/' :: rest), '/' ∉ s := fun s hs ↦ not_mem_of_mem_splitOn hs
  have hne : segments ('/' :: rest) ≠ [] := List.splitOnP_ne_nil _ _
  have hp : '/' :: rest = ofSegments (segments ('/' :: rest)) := (ofSegments_splitOn rest).symm
  generalize segments ('/' :: rest) = segs at hsl hne hp hc ⊢
  rw [hp] at hq hs ⊢
  have h : ∀ s ∈ segs, ∀ x ∈ s, x ≠ '/' ∧ x ≠ '?' := fun s hs x hx ↦
    ⟨fun e ↦ hsl s hs (e ▸ hx), fun e ↦ hq (e ▸ mem_ofSegments hs hx)⟩
  obtain ⟨V, hV⟩ := Option.isSome_iff_exists.1 (popDots_isSome [] hc)
  have hrfc : removeDotSegments (ofSegments segs) =
      ofSegments V.reverse ++ if endsInDir segs then ['/'] else [] := by
    simpa using loop_ofSegments hsl (ne_nil_of_no_double_slash hs) hne _ [] V (by simp) le_rfl hV
  have hkept : ∀ v ∈ V.reverse, v ≠ [] := fun v hv ↦
    ((mem_of_popDots hV v (List.mem_reverse.1 hv)).resolve_left (List.not_mem_nil _)).2
  rw [hrfc, removeDots_ofSegments h hne hV]
  obtain ⟨A, l, rfl⟩ : ∃ A l, segs = A ++ [l] := ⟨_, _, (List.dropLast_append_getLast hne).symm⟩
  simp only [endsInDir, List.getLast?_concat, Option.some.injEq]
  by_cases h0 : l = []
  · simp [h0]
  by_cases hd : l = ['.'] ∨ l = ['.', '.']
  · -- The RFC's trailing `/` is dropped unless nothing is kept.
    have hv : V = [] ∨ V ≠ [] ∧ ofSegments V.reverse ≠ ['/'] :=
      (em _).imp_right fun hv ↦ ⟨hv, ofSegments_ne_slash hkept (by simpa using hv)⟩
    rcases hv with hv | ⟨hv, hv'⟩
    · rcases hd with rfl | rfl <;> simp [hv]
    · rcases hd with rfl | rfl <;> simp [hv, hv']
  · push_neg at hd
    simp [h0, hd.1, hd.2, popDots_last h0 hd.1 hd.2 hV]

theorem remove_dots_rfc_absolute_up :
    removeDotSegments "/a/b/..".toList =
      if ((segments "/a/b/..".toList).getLast? = some ['.'] ∨
          (segments "/a/b/..".toList).getLast? = some ['.', '.']) ∧
          removeDots "/a/b/..".toList ≠ ['/'] then removeDots "/a/b/..".toList ++ ['/']
      else removeDots "/a/b/..".toList :=
  remove_dots_rfc_absolute (by decide) (by decide) (by decide) (by decide)

theorem remove_dots_differs :
    '?' ∉ "/a/b/..".toList ∧ ¬List.IsInfix ['/', '/'] "/a/b/..".toList ∧
      climbFree 0 (segments "/a/b/..".toList) = true ∧
      removeDots "/a/b/..".toList = "/a".toList ∧
      removeDotSegments "/a/b/..".toList = "/a/".toList ∧
    '?' ∉ "a/../b".toList ∧ ¬List.IsInfix ['/', '/'] "a/../b".toList ∧
      climbFree 0 ("a/../b".toList.splitOn '/') = true ∧
      removeDots "a/../b".toList = ['b'] ∧ removeDotSegments "a/../b".toList = "/b".toList := by
  decide

section Idempotent

def Kept (w : List Char) : Prop :=
  w ≠ [] ∧ w ≠ ['.'] ∧ w ≠ ['.', '.'] ∧ ∀ x ∈ w, x ≠ '/' ∧ x ≠ '?'

def printed (abs slash : Bool) : List (List Char) → List Char
  | [] => if abs then ['/'] else []
  | w :: W =>
    (if abs then ofSegments (w :: W) else w ++ ofSegments W) ++ if slash then ['/'] else []

theorem popDots_kept {W : List (List Char)} (hW : ∀ w ∈ W, Kept w) (vpath : List (List Char)) :
    popDots vpath W = some (W.reverse ++ vpath) := by
  induction W generalizing vpath with
  | nil => rfl
  | cons w W ih =>
    obtain ⟨h0, h1, h2, -⟩ := hW w (.head _)
    rw [popDots_push h0 h1 h2, ih fun u hu ↦ hW u (.tail _ hu)]
    simp

theorem kept_of_popDots {vpath elts V : List (List Char)} (h : popDots vpath elts = some V)
    (he : ∀ e ∈ elts, ∀ x ∈ e, x ≠ '/' ∧ x ≠ '?') (hv : ∀ v ∈ vpath, Kept v) :
    ∀ v ∈ V, Kept v := by
  induction elts generalizing vpath with
  | nil => cases h; exact hv
  | cons e elts ih =>
    have he' := fun u hu ↦ he u (List.mem_cons_of_mem e hu)
    simp only [popDots] at h
    split_ifs at h with h0 h1
    · exact ih h he' hv
    · cases vpath with
      | nil => cases h
      | cons _ vp => exact ih h he' fun v hv' ↦ hv v (.tail _ hv')
    · refine ih h he' ?_
      rintro v (_ | ⟨_, hv'⟩)
      · exact ⟨fun h ↦ h0 (.inl h), fun h ↦ h0 (.inr h), h1, he e (.head _)⟩
      · exact hv v hv'

theorem dotElements_clean {s : List Char} (hs : '?' ∉ s) :
    ∀ acc : List Char, (∀ x ∈ acc, x ≠ '/' ∧ x ≠ '?') →
      ∀ e ∈ dotElements acc s, ∀ x ∈ e, x ≠ '/' ∧ x ≠ '?' := by
  induction s with
  | nil => intro acc hacc; simpa [dotElements] using hacc
  | cons c s ih =>
    intro acc hacc
    have hc : c ≠ '?' := fun h ↦ hs (h ▸ .head _)
    have ih' := ih fun h ↦ hs (.tail _ h)
    by_cases h1 : c = '/'
    · subst h1
      simp only [dotElements, List.mem_cons]
      rintro e (rfl | he)
      · simpa using hacc
      · exact ih' [] (by simp) e he
    · rw [dotElements]
      · refine ih' _ ?_
        rintro x (_ | ⟨_, hx⟩)
        exacts [⟨h1, hc⟩, hacc x hx]
      exacts [h1, hc]

theorem removeDots_eq {s : List Char} (hs : s ≠ []) (hq : '?' ∉ s) {V : List (List Char)}
    (hV : popDots [] (dotElements [] s) = some V) :
    removeDots s = printed (s.head? = some '/') (s.getLast? = some '/') V.reverse := by
  have hk : ∀ v ∈ V.reverse, Kept v := fun v hv ↦
    kept_of_popDots hV (dotElements_clean hq [] (by simp)) (by simp) v (List.mem_reverse.1 hv)
  unfold removeDots
  rw [if_neg hs, hV]
  dsimp only
  generalize V.reverse = W at hk
  by_cases hh : s.head? = some '/'
  · simp only [hh, if_true, slash_flatten, List.getLast?_concat, List.dropLast_concat,
      decide_True]
    rcases W with _ | ⟨w, W⟩
    · simp [printed]
    · have hlen : 1 < (ofSegments (w :: W) ++ ['/']).length := by
        simp only [ofSegments_cons, List.length_append, List.length_cons, List.length_nil]
        omega
      by_cases hl : s.getLast? = some '/' <;> simp [printed, hl, hlen]
  · simp only [hh, if_false, List.nil_append, decide_False]
    rcases W with _ | ⟨w, W⟩
    · simp [printed]
    · have hw : w ≠ [] := (hk w (.head _)).1
      have hout : ((w :: W).map (· ++ ['/'])).flatten = w ++ ofSegments W ++ ['/'] := by
        simp only [List.map_cons, List.flatten_cons, List.append_assoc, ← slash_flatten]
      have hlen : 1 < w.length + ((ofSegments W).length + 1) := by
        have := List.length_pos.2 hw
        omega
      rw [hout]
      by_cases hl : s.getLast? = some '/' <;>
        simp [printed, hl, hlen, List.dropLast_concat]

theorem kept_clean {W : List (List Char)} (hW : ∀ w ∈ W, Kept w) :
    ∀ s ∈ W, ∀ x ∈ s, x ≠ '/' ∧ x ≠ '?' := fun s hs ↦ (hW s hs).2.2.2

theorem getLast?_ofSegments_kept {W : List (List Char)} (hW : ∀ w ∈ W, Kept w) (hne : W ≠ []) :
    (ofSegments W).getLast? ≠ some '/' := by
  rw [Ne, getLast?_ofSegments (fun s hs hx ↦ ((hW s hs).2.2.2 _ hx).1 rfl) hne]
  intro h
  exact (hW _ (List.mem_of_getLast?_eq_some h)).1 rfl

theorem printed_cons (abs slash : Bool) (w : List Char) (W : List (List Char)) :
    printed abs slash (w :: W) = (if abs then ['/'] else []) ++
      (w ++ ofSegments W ++ if slash then ['/'] else []) := by
  cases abs <;> simp [printed]

section Body

variable {w : List Char} {W : List (List Char)} (hW : ∀ u ∈ w :: W, Kept u) (slash : Bool)
include hW

theorem dotElements_body :
    dotElements [] (w ++ ofSegments W ++ if slash then ['/'] else []) =
      (w :: W) ++ if slash then [[]] else [] := by
  have hc : ∀ u ∈ W ++ [[]], ∀ x ∈ u, x ≠ '/' ∧ x ≠ '?' := by
    simp only [List.mem_append, List.mem_singleton]
    rintro u (hu | rfl)
    exacts [kept_clean hW u (.tail _ hu), by simp]
  rw [List.append_assoc, dotElements_append (hW w (.head _)).2.2.2]
  cases slash
  · simpa using dotElements_ofSegments (fun u hu ↦ hc u (List.mem_append_left _ hu)) w.reverse
  · simpa [ofSegments_append] using dotElements_ofSegments hc w.reverse

theorem popDots_body :
    popDots [] ((w :: W) ++ if slash then [[]] else []) = some (w :: W).reverse := by
  rw [popDots_append, popDots_kept hW, List.append_nil]
  cases slash <;> rfl

theorem not_mem_body : '?' ∉ w ++ ofSegments W ++ if slash then ['/'] else [] := by
  simp only [List.mem_append]
  rintro ((h | h) | h)
  · exact (kept_clean hW w (.head _) _ h).2 rfl
  · simp only [ofSegments, List.mem_flatten, List.mem_map] at h
    obtain ⟨_, ⟨u, hu, rfl⟩, hx⟩ := h
    rcases List.mem_cons.1 hx with hx | hx
    · cases hx
    · exact (kept_clean hW u (.tail _ hu) _ hx).2 rfl
  · cases slash <;> simp at h

theorem getLast?_body :
    (w ++ ofSegments W ++ if slash then ['/'] else []).getLast? = some '/' ↔ slash = true := by
  cases slash
  · simp only [Bool.false_eq_true, if_false, List.append_nil, iff_false]
    rcases W with _ | ⟨u, W⟩
    · rw [ofSegments_nil, List.append_nil]
      intro h
      exact ((hW w (.head _)).2.2.2 _ (List.mem_of_getLast?_eq_some h)).1 rfl
    · rw [List.getLast?_append_of_ne_nil _ (by simp)]
      exact getLast?_ofSegments_kept (fun v hv ↦ hW v (.tail _ hv)) (List.cons_ne_nil _ _)
  · simp

theorem head?_body : (w ++ ofSegments W ++ if slash then ['/'] else []).head? ≠ some '/' := by
  obtain ⟨x, w', hx⟩ := List.exists_cons_of_ne_nil (hW w (.head _)).1
  have := ((hW w (.head _)).2.2.2 x (hx ▸ .head _)).1
  simpa [hx] using this

end Body

theorem removeDots_printed (abs slash : Bool) {W : List (List Char)} (hW : ∀ w ∈ W, Kept w) :
    removeDots (printed abs slash W) = printed abs slash W := by
  rcases W with _ | ⟨w, W⟩
  · cases abs <;> cases slash <;> decide
  have hne : w ++ ofSegments W ++ (if slash then ['/'] else []) ≠ [] := by
    simp [(hW w (.head _)).1]
  cases abs
  · rw [printed_cons, if_neg Bool.false_ne_true, List.nil_append,
      removeDots_eq hne (not_mem_body hW slash) (dotElements_body hW slash ▸ popDots_body hW slash),
      List.reverse_reverse, printed_cons]
    simp only [head?_body hW slash, getLast?_body hW slash, decide_False, Bool.decide_eq_true,
      Bool.false_eq_true, if_false, List.nil_append]
  · have hpop : popDots [] (dotElements [] ('/' :: (w ++ ofSegments W ++
        if slash then ['/'] else []))) = some (w :: W).reverse := by
      rw [dotElements, dotElements_body hW slash, List.reverse_nil]
      exact popDots_body hW slash
    rw [printed_cons, if_pos rfl, List.singleton_append,
      removeDots_eq (List.cons_ne_nil _ _) (by simpa using not_mem_body hW slash) hpop,
      List.reverse_reverse, printed_cons]
    rw [← List.singleton_append, List.getLast?_append_of_ne_nil _ hne]
    simp only [getLast?_body hW slash, List.singleton_append, List.head?_cons, decide_True,
      Bool.decide_eq_true, if_true]

theorem kept_of_removeDots {s : List Char} {V : List (List Char)} (hq : '?' ∉ s)
    (hV : popDots [] (dotElements [] s) = some V) : ∀ v ∈ V.reverse, Kept v := fun v hv ↦
  kept_of_popDots hV (dotElements_clean hq [] (by simp)) (by simp) v (List.mem_reverse.1 hv)

/-- `remove_dots` is idempotent on paths without `?`: a second pass leaves what the first
printed as it is. -/
theorem remove_dots_idempotent {s : List Char} (hq : '?' ∉ s) :
    removeDots (removeDots s) = removeDots s := by
  by_cases hs : s = []
  · subst hs
    rfl
  cases hV : popDots [] (dotElements [] s) with
  | none => simp only [removeDots, hs, hV, if_false, if_true]
  | some V =>
    rw [removeDots_eq hs hq hV]
    exact removeDots_printed _ _ (kept_of_removeDots hq hV)

theorem remove_dots_idempotent_climb :
    '?' ∉ "/a/./b/../c/".toList ∧
      removeDots (removeDots "/a/./b/../c/".toList) = removeDots "/a/./b/../c/".toList :=
  ⟨by decide, remove_dots_idempotent (by decide)⟩

example : removeDots "/a?b/".toList = "/a?b//".toList ∧
    removeDots "/a?b//".toList = "/a?b///".toList := by
  decide

end Idempotent

end Npupnp.Uri.Dots
