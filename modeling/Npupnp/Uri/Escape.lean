import Mathlib.Data.List.Basic

namespace Npupnp.Uri.Escape

/-- `h2d`: the value of a digit or of an upper-case hexadecimal letter, -1 for any other
character. -/
def h2d (c : Char) : Int :=
  if '0' ≤ c ∧ c ≤ '9' then (c.toNat : Int) - '0'.toNat
  else if 'A' ≤ c ∧ c ≤ 'F' then 10 + (c.toNat : Int) - 'A'.toNat
  else -1

/-- The loop of `remove_escaped_chars` from index `i` on: while three characters are left it
decodes a `%` and its two digits or copies one character, then it copies the last two. -/
def decodeLoop : List Char → List Char
  | c :: d1 :: d2 :: rest =>
    if c = '%' then
      if h2d d1 ≠ -1 ∧ h2d d2 ≠ -1 then
        Char.ofNat (h2d d1 * 16 + h2d d2).toNat :: decodeLoop rest
      else '%' :: d1 :: d2 :: decodeLoop rest
    else c :: decodeLoop (d1 :: d2 :: rest)
  | rest => rest

def removeEscapedChars (input : List Char) : List Char :=
  if input.length ≤ 2 then input else decodeLoop input

/-- Modelled from RFC 2396 §2.4.1: the value of a hexadecimal digit of either case. -/
def hexValue (c : Char) : Option Nat :=
  if '0' ≤ c ∧ c ≤ '9' then some (c.toNat - '0'.toNat)
  else if 'A' ≤ c ∧ c ≤ 'F' then some (c.toNat - 'A'.toNat + 10)
  else if 'a' ≤ c ∧ c ≤ 'f' then some (c.toNat - 'a'.toNat + 10)
  else none

def upperHexValue (c : Char) : Option Nat :=
  if 'a' ≤ c ∧ c ≤ 'f' then none else hexValue c

/-- `e` writes the byte string `s` in RFC 2396 escaping, with the hexadecimal digits `digit`
reads: each character literally, unless it is `%`, or as `%` and the two digits of its value. -/
inductive Escaping (digit : Char → Option Nat) : List Char → List Char → Prop
  | nil : Escaping digit [] []
  | literal {s e : List Char} (c : Char) (hc : c ≠ '%') :
      Escaping digit s e → Escaping digit (c :: s) (c :: e)
  | escaped {s e : List Char} (c hi lo : Char) (hhi : digit hi = some (c.toNat / 16))
      (hlo : digit lo = some (c.toNat % 16)) :
      Escaping digit s e → Escaping digit (c :: s) ('%' :: hi :: lo :: e)

theorem char_le_iff {a b : Char} : a ≤ b ↔ a.toNat ≤ b.toNat := Iff.rfl

theorem h2d_of_upperHexValue {c : Char} {v : Nat} (h : upperHexValue c = some v) :
    h2d c = v := by
  simp only [upperHexValue, hexValue, char_le_iff] at h
  simp only [h2d, char_le_iff]
  split_ifs at h ⊢ <;> simp only [Option.some.injEq, reduceCtorEq] at h <;> omega

theorem decodeLoop_cons {c : Char} (hc : c ≠ '%') (e : List Char) :
    decodeLoop (c :: e) = c :: decodeLoop e := by
  match e with
  | [] => rfl
  | [_] => rfl
  | d1 :: d2 :: rest => simp [decodeLoop, hc]

theorem decodeLoop_escaped {c hi lo : Char} (hhi : upperHexValue hi = some (c.toNat / 16))
    (hlo : upperHexValue lo = some (c.toNat % 16)) (e : List Char) :
    decodeLoop ('%' :: hi :: lo :: e) = c :: decodeLoop e := by
  have hbyte : (h2d hi * 16 + h2d lo).toNat = c.toNat := by
    rw [h2d_of_upperHexValue hhi, h2d_of_upperHexValue hlo]
    omega
  rw [decodeLoop, if_pos rfl,
    if_pos (by rw [h2d_of_upperHexValue hhi, h2d_of_upperHexValue hlo]; omega), hbyte,
    Char.ofNat_toNat]

theorem decodeLoop_of_escaping {s e : List Char} (h : Escaping upperHexValue s e) :
    decodeLoop e = s := by
  induction h with
  | nil => rfl
  | literal c hc _ ih => rw [decodeLoop_cons hc, ih]
  | escaped c hi lo hhi hlo _ ih => rw [decodeLoop_escaped hhi hlo, ih]

theorem removeEscapedChars_eq (e : List Char) : removeEscapedChars e = decodeLoop e := by
  unfold removeEscapedChars
  split_ifs with h
  · match e, h with
    | [], _ | [_], _ | [_, _], _ => rfl
    | _ :: _ :: _ :: _, h => simp at h
  · rfl

/-- `remove_escaped_chars` undoes every escaping whose digits are upper case, but leaves an
escape with a lower-case digit as it is: `%2f`, an escaping of `/`, stays `%2f`. -/
theorem remove_escaped_chars_upper_only :
    (∀ s e, Escaping upperHexValue s e → removeEscapedChars e = s) ∧
      Escaping hexValue ['/'] "%2f".toList ∧ removeEscapedChars "%2f".toList = "%2f".toList :=
  ⟨fun _ e h ↦ (removeEscapedChars_eq e).trans (decodeLoop_of_escaping h),
    .escaped '/' '2' 'f' rfl rfl .nil, by decide⟩

end Npupnp.Uri.Escape
