import Npupnp.Gena.Notify

namespace Npupnp.Gena.Propertyset

open Notify

section Documents

def Blank (w : List String) : Prop :=
  ∀ c ∈ w, ∀ x ∈ c.toList, x ∈ trimChars

instance (w : List String) : Decidable (Blank w) :=
  inferInstanceAs (Decidable (∀ c ∈ w, ∀ x ∈ c.toList, x ∈ trimChars))

structure Chunked (value : String) (cs : List String) : Prop where
  join : (cs.map String.toList).flatten = value.toList
  head : ∀ x ∈ value.toList.head?, x ∉ trimChars
  last : ∀ x ∈ value.toList.getLast?, x ∉ trimChars
  nul : ∀ c ∈ cs, c.toList.head? ≠ some '\x00'

def propertyEvents (name : String) (w₁ w₂ cs w₃ : List String) : List XmlEvent :=
  w₁.map .characterData ++ [.startElement "e:property"] ++ w₂.map .characterData ++
    [.startElement name] ++ cs.map .characterData ++ [.endElement name] ++
    w₃.map .characterData ++ [.endElement "e:property"]

/-- `evs` serializes `pairs`: one property block per pair, in order. -/
inductive Serializes : List (String × String) → List XmlEvent → Prop
  | nil : Serializes [] []
  | cons {name value : String} {w₁ w₂ cs w₃ : List String} {pairs : List (String × String)}
      {evs : List XmlEvent} (h₁ : Blank w₁) (h₂ : Blank w₂) (h₃ : Blank w₃)
      (hv : Chunked value cs) (hs : Serializes pairs evs) :
      Serializes ((name, value) :: pairs) (propertyEvents name w₁ w₂ cs w₃ ++ evs)

def propertysetEvents (evs : List XmlEvent) (w : List String) : List XmlEvent :=
  .startElement "e:propertyset" :: (evs ++ w.map .characterData ++ [.endElement "e:propertyset"])

end Documents

section Map

def setProps (pairs : List (String × String)) (pd : List (String × String)) :
    List (String × String) :=
  pairs.foldl (fun pd q ↦ setProp q.1 q.2 pd) pd

theorem lookup_filter_ne {n name : String} (h : n ≠ name) (pd : List (String × String)) :
    (pd.filter (fun p ↦ p.1 ≠ name)).lookup n = pd.lookup n := by
  induction pd with
  | nil => rfl
  | cons q pd ih =>
    obtain ⟨k, v⟩ := q
    by_cases hk : k = name
    · subst hk
      have hn : (n == k) = false := by simpa using h
      rw [List.filter_cons_of_neg (by simp), ih, List.lookup_cons, hn]
    · rw [List.filter_cons_of_pos (by simpa using hk), List.lookup_cons, List.lookup_cons, ih]

theorem lookup_setProp (name value n : String) (pd : List (String × String)) :
    (setProp name value pd).lookup n = if n = name then some value else pd.lookup n := by
  by_cases h : n = name
  · simp [setProp, h]
  · have hn : (n == name) = false := by simpa using h
    rw [setProp, List.lookup_cons, hn, if_neg h, lookup_filter_ne h]

theorem nodup_setProp {pd : List (String × String)} (h : (pd.map Prod.fst).Nodup)
    (name value : String) : ((setProp name value pd).map Prod.fst).Nodup := by
  simp only [setProp, List.map_cons, List.nodup_cons]
  exact ⟨by simp, h.sublist ((List.filter_sublist _).map _)⟩

theorem lookup_setProps (pairs pd : List (String × String)) (n : String) :
    (setProps pairs pd).lookup n = (pairs.reverse.lookup n).or (pd.lookup n) := by
  induction pairs generalizing pd with
  | nil => rfl
  | cons q pairs ih =>
    obtain ⟨k, v⟩ := q
    rw [setProps, List.foldl_cons, ← setProps, ih, List.reverse_cons, List.lookup_append,
      Option.or_assoc, lookup_setProp]
    by_cases h : n = k
    · subst h
      simp
    · have hn : (n == k) = false := by simpa using h
      simp [List.lookup_cons, hn, h]

theorem nodup_setProps (pairs : List (String × String)) {pd : List (String × String)}
    (h : (pd.map Prod.fst).Nodup) : ((setProps pairs pd).map Prod.fst).Nodup := by
  induction pairs generalizing pd with
  | nil => exact h
  | cons q pairs ih => exact ih (nodup_setProp h _ _)

end Map

section Parser

variable {p : PropertysetParser}

theorem characterData_append {s : String} (hs : s.toList.head? ≠ some '\x00') :
    p.characterData s = { p with chardata := p.chardata ++ s } := by
  unfold PropertysetParser.characterData
  rcases s with ⟨_ | ⟨c, l⟩⟩
  · simp
  · have hc : c ≠ '\x00' := by simpa using hs
    simp [hc]

theorem foldl_characterData {cs : List String} (h : ∀ c ∈ cs, c.toList.head? ≠ some '\x00')
    (p : PropertysetParser) :
    (cs.map .characterData).foldl PropertysetParser.handle p =
      { p with chardata := ⟨p.chardata.toList ++ (cs.map String.toList).flatten⟩ } := by
  induction cs generalizing p with
  | nil => simp
  | cons c cs ih =>
    rw [List.map_cons, List.foldl_cons, PropertysetParser.handle,
      characterData_append (h c (.head _)), ih fun c' hc' ↦ h c' (.tail _ hc')]
    simp [List.append_assoc]

theorem Blank.head_ne_nul {w : List String} (hw : Blank w) :
    ∀ c ∈ w, c.toList.head? ≠ some '\x00' :=
  fun c hc h ↦ absurd (hw c hc _ (List.mem_of_mem_head? h)) (by decide)

theorem Blank.flatten {w : List String} (hw : Blank w) :
    ∀ x ∈ (w.map String.toList).flatten, x ∈ trimChars := by
  intro x hx
  obtain ⟨_, hl, hx⟩ := List.mem_flatten.1 hx
  obtain ⟨c, hc, rfl⟩ := List.mem_map.1 hl
  exact hw c hc x hx

theorem dropWhile_trimChars {l : List Char} (h : ∀ x ∈ l.head?, x ∉ trimChars) :
    l.dropWhile (· ∈ trimChars) = l := by
  cases l with
  | nil => rfl
  | cons c l => simp [List.dropWhile_cons, h c rfl]

theorem trimstring_blank_append {b v : List Char} (hb : ∀ x ∈ b, x ∈ trimChars)
    (hh : ∀ x ∈ v.head?, x ∉ trimChars) (hl : ∀ x ∈ v.getLast?, x ∉ trimChars) :
    trimstring ⟨b ++ v⟩ = ⟨v⟩ := by
  unfold trimstring
  have hr : ∀ x ∈ v.reverse.head?, x ∉ trimChars := by simpa using hl
  simp only [String.toList, List.dropWhile_append_of_pos fun x hx ↦ decide_eq_true (hb x hx),
    dropWhile_trimChars hh, dropWhile_trimChars hr, List.reverse_reverse]

structure Between (p : PropertysetParser) : Prop where
  path : p.path = ["e:propertyset"]
  blank : ∀ x ∈ p.chardata.toList, x ∈ trimChars

theorem Between.foldl_propertyEvents {name value : String} {w₁ w₂ cs w₃ : List String}
    (hp : Between p) (h₁ : Blank w₁) (h₂ : Blank w₂) (h₃ : Blank w₃) (hv : Chunked value cs) :
    (propertyEvents name w₁ w₂ cs w₃).foldl PropertysetParser.handle p =
      ⟨["e:propertyset"], "", setProp name value p.propdata⟩ := by
  simp only [propertyEvents, List.foldl_append, foldl_characterData h₁.head_ne_nul,
    foldl_characterData h₂.head_ne_nul, foldl_characterData hv.nul,
    foldl_characterData h₃.head_ne_nul, List.foldl_cons, List.foldl_nil,
    PropertysetParser.handle, PropertysetParser.endElement, hp.path, hv.join]
  have hprop : domCmpName "e:property" "property" = true := by decide
  have hset : domCmpName "e:propertyset" "property" = false := by decide
  have hb : ∀ x ∈ p.chardata.toList ++ (w₁.map String.toList).flatten ++
      (w₂.map String.toList).flatten, x ∈ trimChars := by
    simp only [List.mem_append]
    rintro x ((hx | hx) | hx)
    exacts [hp.blank x hx, h₁.flatten x hx, h₂.flatten x hx]
  simp only [List.tail_cons, hprop, hset, if_true, Bool.false_eq_true, if_false]
  have ht := trimstring_blank_append hb hv.head hv.last
  exact congrArg (fun v ↦ (⟨_, _, setProp name v p.propdata⟩ : PropertysetParser)) ht

theorem Between.foldl_serializes {pairs : List (String × String)} {evs : List XmlEvent}
    (hs : Serializes pairs evs) (hp : Between p) :
    Between (evs.foldl PropertysetParser.handle p) ∧
      (evs.foldl PropertysetParser.handle p).propdata = setProps pairs p.propdata := by
  induction hs generalizing p with
  | nil => exact ⟨hp, rfl⟩
  | cons h₁ h₂ h₃ hv _ ih =>
    rw [List.foldl_append, hp.foldl_propertyEvents h₁ h₂ h₃ hv]
    exact ih ⟨rfl, by simp⟩

end Parser

/-- Every SAX stream of a `<e:propertyset>` document that serializes `pairs` leaves in
`propdata` each name once, with the value of its last pair. -/
theorem propertyset_round_trip {pairs : List (String × String)} {evs : List XmlEvent}
    {w : List String} (hs : Serializes pairs evs) (hw : Blank w) :
    (∀ n, (parsePropertyset (propertysetEvents evs w)).lookup n = pairs.reverse.lookup n) ∧
      ((parsePropertyset (propertysetEvents evs w)).map Prod.fst).Nodup := by
  obtain ⟨hb, hpd⟩ := Between.foldl_serializes (p := ⟨["e:propertyset"], "", []⟩) hs ⟨rfl, by simp⟩
  have hroot : domCmpName "root" "property" = false := by decide
  have hend : parsePropertyset (propertysetEvents evs w) = setProps pairs [] := by
    simp only [parsePropertyset, propertysetEvents, List.foldl_cons, List.foldl_append,
      foldl_characterData hw.head_ne_nul, List.foldl_nil, PropertysetParser.handle,
      PropertysetParser.endElement, hb.path, hroot, Bool.false_eq_true, if_false]
    exact hpd
  rw [hend]
  exact ⟨fun n ↦ by rw [lookup_setProps, List.lookup_nil, Option.or_none],
    nodup_setProps pairs List.nodup_nil⟩

def sampleProperties : List XmlEvent :=
  propertyEvents "Foo" ["\n  "] [" "] ["1"] [] ++
    (propertyEvents "Bar" [] ["\t"] ["a", " b"] ["\r\n"] ++
      (propertyEvents "Foo" [" "] [] ["2"] [" "] ++ []))

example : parsePropertyset (propertysetEvents sampleProperties ["\n"]) =
    [("Foo", "2"), ("Bar", "a b")] := by decide

theorem propertyset_round_trip_sample :
    (∀ n, (parsePropertyset (propertysetEvents sampleProperties ["\n"])).lookup n =
      [("Foo", "1"), ("Bar", "a b"), ("Foo", "2")].reverse.lookup n) ∧
    ((parsePropertyset (propertysetEvents sampleProperties ["\n"])).map Prod.fst).Nodup :=
  propertyset_round_trip
    (.cons (by decide) (by decide) (by decide) ⟨rfl, by decide, by decide, by decide⟩ <|
      .cons (by decide) (by decide) (by decide) ⟨rfl, by decide, by decide, by decide⟩ <|
      .cons (by decide) (by decide) (by decide) ⟨rfl, by decide, by decide, by decide⟩ .nil)
    (by decide)

end Npupnp.Gena.Propertyset
