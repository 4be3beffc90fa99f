import Npupnp.Gena.Basic

namespace Npupnp.Uri.Parse

open Gena.Basic

/-- What `parse_hostport` asks of the C library, reduced to success: `inet_pton` on IPv4 and IPv6
literals, and `getaddrinfo` on a name. -/
structure Net where
  inetPton4 : List Char → Bool
  inetPton6 : List Char → Bool
  getaddrinfo : List Char → Bool

inductive UriType
  | absolute
  | relative
  deriving DecidableEq, Repr

inductive PathType
  | absPath
  | relPath
  | opaquePart
  deriving DecidableEq, Repr

/-- `hostport_type`: the text and the port stored in `IPaddress`. The address itself is left
out; the modelled functions only ask whether it converts. -/
structure HostPort where
  text : List Char
  port : Nat
  deriving DecidableEq, Repr

structure Uri where
  scheme : List Char
  type : UriType
  pathType : PathType
  hostport : HostPort
  path : List Char
  query : List Char
  fragment : List Char
  deriving DecidableEq, Repr

def breakAt (c : Char) : List Char → List Char × Option (List Char)
  | [] => ([], none)
  | x :: r => if x = c then ([], some r) else (x :: (breakAt c r).1, (breakAt c r).2)

def hostChar (c : Char) : Bool :=
  c != ':' && c != '/' && (c.isAlphanum || c == '.' || c == '-')

def afterLastDot : List Char → Option (List Char)
  | [] => none
  | c :: r =>
    match afterLastDot r with
    | some t => some t
    | none => if c = '.' then some r else none

/-- `last_dot != NULL && isdigit(*(last_dot + 1))`: the name is taken for an IPv4 address. -/
def ipv4Shaped (srvname : List Char) : Bool :=
  match afterLastDot srvname with
  | some (d :: _) => d.isDigit
  | _ => false

def cSpace (c : Char) : Bool :=
  c == ' ' || c == '\t' || c == '\n' || c == '\x0b' || c == '\x0c' || c == '\r'

/-- `(unsigned short)atoi(s)` as glibc computes it: `strtol` skips white space, reads a sign
and decimal digits and saturates at the bounds of `long`; the casts keep the low 16 bits. -/
def atoiPort (s : List Char) : Nat :=
  let s := s.dropWhile cSpace
  let signed : Bool × List Char :=
    match s with
    | '-' :: r => (true, r)
    | '+' :: r => (false, r)
    | r => (false, r)
  let v : Int := digitsValue (signed.2.takeWhile Char.isDigit)
  let v := if signed.1 then max (-v) (-2 ^ 63) else min v (2 ^ 63 - 1)
  (v % 2 ^ 16).toNat

/-- The end of `parse_hostport` once the host is read: a port must `atoi` to nonzero over the digits
scanned, the address must convert, and the port is 80 without one. -/
def hostportOf (input : List Char) (converted hasPort : Bool) (size : Nat)
    (rest : List Char) : Except Code HostPort :=
  if hasPort && atoiPort rest == 0 then .error .invalidUrl
  else if converted then
    .ok ⟨input.take (size + if hasPort then (rest.takeWhile Char.isDigit).length else 0),
      if hasPort then atoiPort rest else 80⟩
  else .error .invalidUrl

/-- `parse_hostport` on the text after `//`, on a copy cut at the first NUL and at 255 characters:
a bracketed IPv6 literal or a scanned name or IPv4 address, then an optional `:port`. -/
def parseHostport (net : Net) (input : List Char) : Except Code HostPort :=
  match (input.takeWhile (· != '\x00')).take 255 with
  | '[' :: rest =>
    match breakAt ']' rest with
    | (_, none) => .error .invalidUrl
    | (srvname, some (':' :: port)) =>
      hostportOf input (net.inetPton6 srvname) true (srvname.length + 3) port
    | (srvname, some after) =>
      hostportOf input (net.inetPton6 srvname) false (srvname.length + 2) after
  | workbuf =>
    let srvname := workbuf.takeWhile hostChar
    let converted := if ipv4Shaped srvname then net.inetPton4 srvname
      else net.getaddrinfo srvname
    match workbuf.dropWhile hostChar with
    | ':' :: port => hostportOf input converted true (srvname.length + 1) port
    | after => hostportOf input converted false srvname.length after

def schemeChar (c : Char) : Bool :=
  c.isAlphanum || c == '+' || c == '-' || c == '.'

/-- `parse_scheme`: a letter, then scheme characters up to the first `:`. The source returns
the scheme's length, 0 for none; here the scheme itself, empty for none. -/
def parseScheme (input : List Char) : List Char :=
  match input, breakAt ':' input with
  | c :: _, (pre, some _) => if c.isAlpha && pre.all schemeChar then pre else []
  | _, _ => []

/-- The end of `parse_uri` from `begin_path`: `find('?')` and `find('#')` cut path, query and
fragment, a `#` before the first `?` leaving the query empty. -/
def splitPath (r : List Char) : List Char × List Char × List Char :=
  match breakAt '?' r, breakAt '#' r with
  | (path, none), (_, none) => (path, [], [])
  | (path, some query), (_, none) => (path, query, [])
  | (_, none), (path, some fragment) => (path, [], fragment)
  | (beforeQ, some afterQ), (beforeH, some fragment) =>
    if beforeH.length < beforeQ.length then (beforeH, [], fragment)
    else (beforeQ, afterQ.take (beforeH.length - beforeQ.length - 1), fragment)

def uriOf (scheme : List Char) (hostport : HostPort) (r : List Char) : Uri where
  scheme := scheme
  type := if scheme = [] then .relative else .absolute
  pathType := if (splitPath r).1.head? = some '/' then .absPath
    else if scheme = [] then .relPath else .opaquePart
  hostport := hostport
  path := (splitPath r).1
  query := (splitPath r).2.1
  fragment := (splitPath r).2.2

/-- `parse_uri` into a fresh `uri_type`: the scheme and its `:`, then `//` and
`parse_hostport` when they follow, then path, query and fragment. -/
def parseUri (net : Net) (input : List Char) : Except Code Uri :=
  let scheme := parseScheme input
  match if scheme = [] then input else input.drop (scheme.length + 1) with
  | '/' :: '/' :: rest =>
    match parseHostport net rest with
    | .ok hostport => .ok (uriOf scheme hostport (rest.drop hostport.text.length))
    | .error e => .error e
  | r => .ok (uriOf scheme ⟨[], 0⟩ r)

def ipv6Char (c : Char) : Bool :=
  c.isDigit || c == ':' || c == '.' || ('a' ≤ c && c ≤ 'f') || ('A' ≤ c && c ≤ 'F')

def Net.Literal6 (net : Net) : Prop :=
  ∀ w, net.inetPton6 w = true → ∀ c ∈ w, ipv6Char c = true

def sampleNet : Net where
  inetPton4 w := (w.splitOn '.').length == 4 &&
    (w.splitOn '.').all fun p ↦ p != [] && p.all Char.isDigit && digitsValue p ≤ 255
  inetPton6 w := w.contains ':' && w.all ipv6Char
  getaddrinfo _ := false

theorem sampleNet_literal6 : sampleNet.Literal6 := fun _ h ↦
  List.all_eq_true.1 (Bool.and_eq_true_iff.1 h).2

example : parseUri sampleNet "http://10.0.0.5:49152/evt?x#y".toList =
    .ok ⟨"http".toList, .absolute, .absPath, ⟨"10.0.0.5:49152".toList, 49152⟩, "/evt".toList,
      ['x'], ['y']⟩ := rfl

def authorityEnd (c : Char) : Bool :=
  c == '/' || c == '?' || c == '#'

theorem breakAt_spec (c : Char) (r : List Char) :
    r = (breakAt c r).1 ++ (breakAt c r).2.elim [] (c :: ·) ∧ c ∉ (breakAt c r).1 := by
  induction r with
  | nil => simp [breakAt]
  | cons x r ih =>
    by_cases hx : x = c
    · simp [breakAt, hx]
    · simp only [breakAt, hx, if_false, List.cons_append, List.mem_cons, not_or]
      exact ⟨congrArg _ ih.1, Ne.symm hx, ih.2⟩

theorem breakAt_some {c : Char} {r pre post : List Char} (h : breakAt c r = (pre, some post)) :
    r = pre ++ c :: post ∧ c ∉ pre := by
  simpa [h] using breakAt_spec c r

theorem breakAt_none {c : Char} {r pre : List Char} (h : breakAt c r = (pre, none)) :
    r = pre ∧ c ∉ pre := by
  simpa [h] using breakAt_spec c r

theorem splitPath_spec (r : List Char) :
    ∃ hasQuery hasFragment : Bool,
      r = (splitPath r).1 ++ ((if hasQuery then '?' :: (splitPath r).2.1 else []) ++
        (if hasFragment then '#' :: (splitPath r).2.2 else [])) ∧
      '?' ∉ (splitPath r).1 ∧ '#' ∉ (splitPath r).1 ∧ '#' ∉ (splitPath r).2.1 ∧
      (hasQuery = false → (splitPath r).2.1 = []) ∧
      (hasFragment = false → (splitPath r).2.2 = []) := by
  unfold splitPath
  rcases hq : breakAt '?' r with ⟨bq, _ | aq⟩ <;>
    rcases hh : breakAt '#' r with ⟨bh, _ | fr⟩
  · obtain ⟨rfl, nq⟩ := breakAt_none hq
    obtain ⟨rfl, nh⟩ := breakAt_none hh
    exact ⟨false, false, by simp, nq, nh, by simp, by simp, by simp⟩
  · obtain ⟨rfl, nq⟩ := breakAt_none hq
    obtain ⟨e, nh⟩ := breakAt_some hh
    exact ⟨false, true, by simpa using e, fun h ↦ nq (e ▸ List.mem_append_left _ h), nh,
      by simp, by simp, by simp⟩
  · obtain ⟨e, nq⟩ := breakAt_some hq
    obtain ⟨rfl, nh⟩ := breakAt_none hh
    refine ⟨true, false, by simpa using e, nq, fun h ↦ nh (e ▸ List.mem_append_left _ h),
      fun h ↦ nh (e ▸ List.mem_append_right _ (List.mem_cons_of_mem _ h)), by simp, by simp⟩
  · obtain ⟨eq, nq⟩ := breakAt_some hq
    obtain ⟨eh, nh⟩ := breakAt_some hh
    rcases List.append_eq_append_iff.1 (eq.symm.trans eh) with ⟨_ | ⟨x, a⟩, rfl, ha⟩ |
      ⟨_ | ⟨x, a⟩, rfl, ha⟩
    · exact absurd (List.cons.inj ha).1 (by decide)
    · obtain ⟨rfl, rfl⟩ := List.cons.inj (by simpa only [List.cons_append] using ha)
      have hlen : ¬ (bq ++ '?' :: a).length < bq.length := by simp
      have hq' : (a ++ '#' :: fr).take ((bq ++ '?' :: a).length - bq.length - 1) = a := by
        simp
      simp only [hlen, if_false, hq']
      exact ⟨true, true, by simpa using eh, nq, fun h ↦ nh (List.mem_append_left _ h),
        fun h ↦ nh (List.mem_append_right _ (List.mem_cons_of_mem _ h)), by simp, by simp⟩
    · exact absurd (List.cons.inj ha).1 (by decide)
    · obtain ⟨rfl, rfl⟩ := List.cons.inj (by simpa only [List.cons_append] using ha)
      have hlen : bh.length < (bh ++ '#' :: a).length := by simp
      simp only [hlen, if_true]
      exact ⟨false, true, by simpa using eh, fun h ↦ nq (List.mem_append_left _ h), nh,
        by simp, by simp, by simp⟩

theorem authorityEnd_of {p : Char → Bool} (hp : p '/' = false ∧ p '?' = false ∧ p '#' = false)
    {c : Char} (hc : p c = true) : authorityEnd c = false := by
  cases he : authorityEnd c
  · rfl
  · simp only [authorityEnd, Bool.or_eq_true, beq_iff_eq] at he
    rcases he with (rfl | rfl) | rfl <;> simp_all

theorem hostportOf_text {input A rest : List Char} {converted hasPort : Bool} {size : Nat}
    {hp : HostPort} (hA : A ++ rest <+: input) (hsize : size = A.length)
    (h : hostportOf input converted hasPort size rest = .ok hp) :
    converted = true ∧ hp.text = A ++ cond hasPort (rest.takeWhile Char.isDigit) [] := by
  unfold hostportOf at h
  rw [if_neg (by intro h'; simp [h'] at h)] at h
  by_cases hc : converted = true
  · rw [if_pos hc] at h
    cases h
    obtain ⟨t, rfl⟩ := hA
    subst hsize
    refine ⟨hc, ?_⟩
    cases hasPort
    · simp only [Bool.false_eq_true, if_false, Nat.add_zero, cond_false, List.append_nil,
        List.append_assoc]
      exact List.take_left' rfl
    · rw [if_pos rfl, List.append_assoc, List.take_append,
        List.take_append_of_le_length (List.takeWhile_prefix _).length_le,
        ← List.prefix_iff_eq_take.1 (List.takeWhile_prefix _), cond_true]
  · rw [if_neg hc] at h
    cases h

theorem parseHostport_text {net : Net} (hnet : net.Literal6) {input : List Char}
    {hp : HostPort} (h : parseHostport net input = .ok hp) :
    hp.text <+: input ∧ ∀ c ∈ hp.text, authorityEnd c = false := by
  have hw : (input.takeWhile (· != '\x00')).take 255 <+: input :=
    (List.take_prefix _ _).trans (List.takeWhile_prefix _)
  have digit (l : List Char) : ∀ c ∈ l.takeWhile Char.isDigit, authorityEnd c = false :=
    fun _ hc ↦ authorityEnd_of (by decide) (List.mem_takeWhile_imp hc)
  have withPort {A port : List Char} (hA : A ++ port <+: input) :
      A ++ port.takeWhile Char.isDigit <+: input :=
    ((List.prefix_append_right_inj A).2 (List.takeWhile_prefix _)).trans hA
  unfold parseHostport at h
  split at h
  · rename_i rest hrest
    rw [hrest] at hw
    have v6 : ∀ w, net.inetPton6 w = true → ∀ c ∈ w, authorityEnd c = false :=
      fun w hw c hc ↦ authorityEnd_of (by decide) (hnet w hw c hc)
    split at h
    · cases h
    · rename_i srvname port hb
      obtain ⟨e, -⟩ := breakAt_some hb
      have hA : '[' :: srvname ++ [']', ':'] ++ port <+: input := by simpa [e] using hw
      obtain ⟨hc, ht⟩ := hostportOf_text hA (by simp) h
      rw [ht, cond_true]
      refine ⟨withPort hA, ?_⟩
      simp only [List.cons_append, List.forall_mem_cons, List.forall_mem_append]
      exact ⟨rfl, ⟨v6 _ hc, rfl, rfl, fun _ h ↦ nomatch h⟩, digit _⟩
    · rename_i srvname after _ hb
      obtain ⟨e, -⟩ := breakAt_some hb
      have hA : '[' :: srvname ++ [']'] ++ after <+: input := by simpa [e] using hw
      obtain ⟨hc, ht⟩ := hostportOf_text hA (by simp) h
      rw [ht, cond_false, List.append_nil]
      refine ⟨(List.prefix_append _ _).trans hA, ?_⟩
      simp only [List.cons_append, List.forall_mem_cons, List.forall_mem_append]
      exact ⟨rfl, v6 _ hc, rfl, fun _ h ↦ nomatch h⟩
  · have name : ∀ c ∈ List.takeWhile hostChar ((input.takeWhile (· != '\x00')).take 255),
        authorityEnd c = false :=
      fun _ hc ↦ authorityEnd_of (by decide) (List.mem_takeWhile_imp hc)
    have hsplit := List.takeWhile_append_dropWhile hostChar
      ((input.takeWhile (· != '\x00')).take 255)
    split at h
    · rename_i rest hrest
      rw [hrest] at hsplit
      have hA : List.takeWhile hostChar ((input.takeWhile (· != '\x00')).take 255) ++ [':'] ++
          rest <+: input := by simpa [hsplit] using hw
      obtain ⟨-, ht⟩ := hostportOf_text hA (by simp) h
      rw [ht, cond_true]
      refine ⟨withPort hA, ?_⟩
      simp only [List.forall_mem_cons, List.forall_mem_append]
      exact ⟨⟨name, rfl, fun _ h ↦ nomatch h⟩, digit _⟩
    · obtain ⟨-, ht⟩ := hostportOf_text (by rw [← hsplit] at hw; exact hw) rfl h
      rw [ht, cond_false, List.append_nil]
      exact ⟨(List.takeWhile_prefix _).trans hw, name⟩

theorem parseScheme_spec {s : List Char} (hs : parseScheme s ≠ []) :
    s = parseScheme s ++ ':' :: s.drop ((parseScheme s).length + 1) ∧ ':' ∉ parseScheme s := by
  revert hs
  unfold parseScheme
  split
  · rename_i pre post hb
    obtain ⟨e, hn⟩ := breakAt_some hb
    split_ifs
    · exact fun _ ↦ ⟨by rw [e]; simp, hn⟩
    · exact fun h ↦ absurd rfl h
  · exact fun h ↦ absurd rfl h

theorem uriOf_schemePart (sc : List Char) (hp : HostPort) (r : List Char) :
    (if (uriOf sc hp r).type = .absolute then (uriOf sc hp r).scheme ++ [':'] else []) =
      if sc = [] then [] else sc ++ [':'] := by
  by_cases hs : sc = [] <;> simp [uriOf, hs]

theorem uriOf_type (sc : List Char) (hp : HostPort) (r : List Char) :
    (uriOf sc hp r).type = .absolute ↔ (uriOf sc hp r).scheme ≠ [] := by
  by_cases hs : sc = [] <;> simp [uriOf, hs]

/-- How `parse_uri` cuts what it accepts: scheme, `//` host and port, path, query and fragment, each
there iff its delimiter is; with an IPv6 literal host they prefix the RFC 3986 authority. -/
theorem parse_uri_split {net : Net} (hnet : net.Literal6) {s : List Char} {u : Uri}
    (h : parseUri net s = .ok u) :
    ∃ hasAuthority hasQuery hasFragment : Bool,
      s = (if u.type = .absolute then u.scheme ++ [':'] else []) ++
        ((if hasAuthority then '/' :: '/' :: u.hostport.text else []) ++ (u.path ++
        ((if hasQuery then '?' :: u.query else []) ++
          (if hasFragment then '#' :: u.fragment else [])))) ∧
      (u.type = .absolute ↔ u.scheme ≠ []) ∧ ':' ∉ u.scheme ∧
      (hasAuthority = false → u.hostport.text = [] ∧ ¬ ['/', '/'] <+: u.path) ∧
      (∀ c ∈ u.hostport.text, authorityEnd c = false) ∧
      '?' ∉ u.path ∧ '#' ∉ u.path ∧ '#' ∉ u.query ∧
      (hasQuery = false → u.query = []) ∧ (hasFragment = false → u.fragment = []) := by
  have hscheme : s = (if parseScheme s = [] then [] else parseScheme s ++ [':']) ++
      (if parseScheme s = [] then s else s.drop ((parseScheme s).length + 1)) := by
    split_ifs with hs
    · rfl
    · simpa using (parseScheme_spec hs).1
  have hcolon : ':' ∉ parseScheme s := by
    by_cases hs : parseScheme s = []
    · simp [hs]
    · exact (parseScheme_spec hs).2
  unfold parseUri at h
  dsimp only at h
  generalize (if parseScheme s = [] then s else s.drop ((parseScheme s).length + 1)) = after
    at h hscheme
  split at h
  · rename_i _ rest
    split at h
    · rename_i hp hhp
      cases h
      obtain ⟨hpre, hchars⟩ := parseHostport_text hnet hhp
      obtain ⟨q, f, e, h1, h2, h3, h4, h5⟩ := splitPath_spec (rest.drop hp.text.length)
      refine ⟨true, q, f, ?_, uriOf_type _ _ _, hcolon, by simp, hchars, h1, h2, h3, h4, h5⟩
      rw [uriOf_schemePart]
      simp only [uriOf, if_true, List.cons_append]
      rw [← e, List.prefix_iff_eq_append.1 hpre]
      exact hscheme
    · cases h
  · rename_i _ hr
    cases h
    obtain ⟨q, f, e, h1, h2, h3, h4, h5⟩ := splitPath_spec after
    refine ⟨false, q, f, ?_, uriOf_type _ _ _, hcolon, fun _ ↦ ⟨rfl, ?_⟩, by simp [uriOf],
      h1, h2, h3, h4, h5⟩
    · rw [uriOf_schemePart]
      simp only [uriOf, if_false]
      rw [← e]
      exact hscheme
    · rintro ⟨t, ht⟩
      exact hr _ (by rw [e, show (splitPath after).1 = ['/', '/'] ++ t from ht.symm]; rfl)

theorem parse_uri_split_evt :
    ∃ u, parseUri sampleNet "http://10.0.0.5:49152/evt?x#y".toList = .ok u ∧
      ∃ hasAuthority hasQuery hasFragment : Bool,
        "http://10.0.0.5:49152/evt?x#y".toList =
          (if u.type = .absolute then u.scheme ++ [':'] else []) ++
          ((if hasAuthority then '/' :: '/' :: u.hostport.text else []) ++ (u.path ++
          ((if hasQuery then '?' :: u.query else []) ++
            (if hasFragment then '#' :: u.fragment else [])))) ∧
        (u.type = .absolute ↔ u.scheme ≠ []) ∧ ':' ∉ u.scheme ∧
        (hasAuthority = false → u.hostport.text = [] ∧ ¬ ['/', '/'] <+: u.path) ∧
        (∀ c ∈ u.hostport.text, authorityEnd c = false) ∧
        '?' ∉ u.path ∧ '#' ∉ u.path ∧ '#' ∉ u.query ∧
        (hasQuery = false → u.query = []) ∧ (hasFragment = false → u.fragment = []) :=
  ⟨_, rfl, parse_uri_split sampleNet_literal6 rfl⟩

theorem parse_uri_junk_after_port :
    ∃ u, parseUri sampleNet "http://1.2.3.4:80x/p".toList = .ok u ∧
      "1.2.3.4:80x/p".toList.takeWhile (fun c ↦ !authorityEnd c) = "1.2.3.4:80x".toList ∧
      u.hostport.text = "1.2.3.4:80".toList ∧ u.path = "x/p".toList :=
  ⟨_, rfl, rfl, rfl, rfl⟩

theorem hostChar_of_ipv4 {c : Char} (hc : c.isDigit ∨ c = '.') : hostChar c = true := by
  rcases hc with hc | rfl
  · have h1 : c ≠ ':' := by rintro rfl; simp at hc
    have h2 : c ≠ '/' := by rintro rfl; simp at hc
    simp [hostChar, h1, h2, Char.isAlphanum, hc]
  · decide

theorem cSpace_of_digit {c : Char} (hc : c.isDigit ∨ c = '/') : cSpace c = false := by
  rcases hc with hc | rfl
  · simp only [Char.isDigit, Bool.and_eq_true, decide_eq_true_eq] at hc
    simp only [cSpace, Bool.or_eq_false_iff, beq_eq_false_iff_ne, ne_eq]
    refine ⟨⟨⟨⟨⟨?_, ?_⟩, ?_⟩, ?_⟩, ?_⟩, ?_⟩ <;> rintro rfl <;> simp at hc
  · decide

theorem takeWhile_digits {kept rest : List Char} (hk : ∀ c ∈ kept, c.isDigit)
    (hr : rest.head? = none ∨ rest.head? = some '/') :
    (kept ++ rest).takeWhile Char.isDigit = kept := by
  rw [List.takeWhile_append_of_pos hk]
  rcases rest with _ | ⟨c, r⟩ <;> simp_all

theorem atoiPort_digits {kept rest : List Char} (hk : ∀ c ∈ kept, c.isDigit)
    (hr : rest.head? = none ∨ rest.head? = some '/') :
    atoiPort (kept ++ rest) = (min (digitsValue kept : Int) (2 ^ 63 - 1) % 2 ^ 16).toNat := by
  have hhead : ∀ c ∈ (kept ++ rest).head?, c.isDigit ∨ c = '/' := by
    intro c hc
    rcases kept with _ | ⟨k, ks⟩
    · rcases hr with h | h <;> simp only [List.nil_append, h, Option.mem_def, reduceCtorEq,
        Option.some.injEq] at hc
      exact .inr hc.symm
    · simp only [List.cons_append, List.head?_cons, Option.mem_def, Option.some.injEq] at hc
      exact .inl (hc ▸ hk k (List.mem_cons_self _ _))
  have hw : (kept ++ rest).dropWhile cSpace = kept ++ rest := by
    cases hl : kept ++ rest with
    | nil => rfl
    | cons c r => simp [List.dropWhile_cons, cSpace_of_digit (hhead c (by simp [hl]))]
  have hd := takeWhile_digits hk hr
  unfold atoiPort
  simp only [hw]
  rcases hl : kept ++ rest with _ | ⟨c, r⟩
  · rw [hl] at hd
    simp [← hd]
  · have hc := hhead c (by simp [hl])
    rw [hl] at hd
    have hm : c ≠ '-' ∧ c ≠ '+' := by
      rcases hc with hc | rfl
      · constructor <;> rintro rfl <;> simp at hc
      · decide
    split
    · rename_i hs
      split at hs <;> simp_all
    · split <;> simp_all

theorem parseHostport_ipv4 {net : Net} {input h P : List Char}
    (hw : (input.takeWhile (· != '\x00')).take 255 = h ++ ':' :: P)
    (hh : ∀ c ∈ h, c.isDigit ∨ c = '.') (hv4 : ipv4Shaped h = true)
    (hnet : net.inetPton4 h = true) :
    parseHostport net input = hostportOf input true true (h.length + 1) P := by
  have hh' : ∀ c ∈ h, hostChar c = true := fun c hc ↦ hostChar_of_ipv4 (hh c hc)
  have hcolon : hostChar ':' = false := by decide
  unfold parseHostport
  rw [hw]
  split
  · rename_i rest hr
    obtain ⟨c, h', rfl⟩ := List.exists_cons_of_ne_nil (show h ≠ [] by
      rintro rfl; simp [ipv4Shaped, afterLastDot] at hv4)
    simp only [List.cons_append, List.cons.injEq] at hr
    rcases hh c (List.mem_cons_self _ _) with hc | hc <;> simp_all
  · simp only [List.takeWhile_append_of_pos hh', List.dropWhile_append_of_pos hh',
      List.takeWhile_cons, List.dropWhile_cons, hcolon, List.append_nil, hv4, hnet, if_true,
      Bool.false_eq_true, if_false]

/-- `parse_hostport` on an IPv4 address, `:` and a digit string `d`, followed by nothing or
`/`: the port is the value of the digits inside the 255-character working copy, saturated to a
`long` and cut to its low 16 bits, and it is refused only when that is 0. -/
theorem parse_hostport_port_low_bits {net : Net} {h d t : List Char}
    (hh : ∀ c ∈ h, c.isDigit ∨ c = '.') (hv4 : ipv4Shaped h = true) (hlen : h.length < 255)
    (hnet : net.inetPton4 h = true) (hd : ∀ c ∈ d, c.isDigit)
    (ht : t.head? = none ∨ t.head? = some '/') :
    let kept := d.take (254 - h.length)
    let port := (min (digitsValue kept : Int) (2 ^ 63 - 1) % 2 ^ 16).toNat
    parseHostport net (h ++ ':' :: (d ++ t)) =
      if port = 0 then .error .invalidUrl else .ok ⟨h ++ ':' :: kept, port⟩ := by
  intro kept port
  have hnul : ∀ c ∈ h ++ ':' :: d, (c != '\x00') = true := by
    intro c hc
    simp only [List.mem_append, List.mem_cons] at hc
    rcases hc with hc | rfl | hc
    · rcases hh c hc with hc | rfl
      · simp only [bne_iff_ne, ne_eq]; rintro rfl; simp at hc
      · decide
    · decide
    · simp only [bne_iff_ne, ne_eq]; rintro rfl; simpa using hd _ hc
  -- After the digits the working copy holds what is left of `t` before a NUL, if anything.
  set rest := (t.takeWhile (· != '\x00')).take (254 - h.length - d.length)
  have hrest : rest.head? = none ∨ rest.head? = some '/' := by
    rw [List.head?_take]
    split_ifs
    · exact .inl rfl
    · rcases t with _ | ⟨c, r⟩
      · exact .inl rfl
      · simp only [List.head?_cons, reduceCtorEq, Option.some.injEq, false_or] at ht
        subst ht
        exact .inr rfl
  have hw : ((h ++ ':' :: (d ++ t)).takeWhile (· != '\x00')).take 255 =
      h ++ ':' :: (kept ++ rest) := by
    rw [show h ++ ':' :: (d ++ t) = (h ++ ':' :: d) ++ t by simp,
      List.takeWhile_append_of_pos hnul, List.append_assoc, List.cons_append,
      List.take_append_eq_append_take, List.take_of_length_le (by omega),
      show 255 - h.length = 254 - h.length + 1 by omega, List.take_succ_cons,
      List.take_append_eq_append_take]
  have hk : ∀ c ∈ kept, c.isDigit := fun c hc ↦ hd c (List.mem_of_mem_take hc)
  have htext : (h ++ ':' :: (d ++ t)).take (h.length + 1 + kept.length) = h ++ ':' :: kept := by
    rw [List.take_append_eq_append_take, List.take_of_length_le (by omega),
      show h.length + 1 + kept.length - h.length = kept.length + 1 by omega, List.take_succ_cons,
      List.take_append_of_le_length (List.length_take_le' _ _),
      ← List.prefix_iff_eq_take.1 (List.take_prefix _ d)]
  rw [parseHostport_ipv4 hw hh hv4 hnet, hostportOf, atoiPort_digits hk hrest,
    takeWhile_digits hk hrest]
  simp only [Bool.true_and, beq_iff_eq, if_true, htext]

theorem parse_hostport_port_wraps :
    parseHostport sampleNet ("1.2.3.4".toList ++ ':' :: ("65537".toList ++ "/evt".toList)) =
      .ok ⟨"1.2.3.4:65537".toList, 1⟩ :=
  (parse_hostport_port_low_bits (by decide) (by decide) (by decide) (by decide) (by decide)
    (by decide)).trans rfl

end Npupnp.Uri.Parse
