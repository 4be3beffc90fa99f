import Npupnp.Uri.Parse

namespace Npupnp.Uri.Resolve

open Gena.Basic Parse

/-- The elements `remove_dots` reads off a path: the runs between `/`s, empty ones included, where a
run that meets a `?` takes the rest of the string; `acc` is the current run, reversed. -/
def dotElements (acc : List Char) : List Char → List (List Char)
  | [] => [acc.reverse]
  | '/' :: r => acc.reverse :: dotElements [] r
  | '?' :: r => [acc.reverse ++ '?' :: r]
  | c :: r => dotElements (c :: acc) r

/-- The element loop of `remove_dots` on the reversed `vpath`: empty elements and `.` are skipped,
`..` pops, and popping an empty `vpath` is the error returned as the empty string. -/
def popDots (vpath : List (List Char)) : List (List Char) → Option (List (List Char))
  | [] => some vpath
  | elt :: elts =>
    if elt = [] ∨ elt = ['.'] then popDots vpath elts
    else if elt = ['.', '.'] then
      match vpath with
      | [] => none
      | _ :: v => popDots v elts
    else popDots (elt :: vpath) elts

/-- `remove_dots`: the kept elements each followed by `/`, after a `/` for an absolute path,
with the last `/` dropped unless the path ended with one. -/
def removeDots (s : List Char) : List Char :=
  if s = [] then [] else
  match popDots [] (dotElements [] s) with
  | none => []
  | some vpath =>
    let out := (if s.head? = some '/' then ['/'] else []) ++
      (vpath.reverse.map (· ++ ['/'])).flatten
    if s.getLast? ≠ some '/' ∧ 1 < out.length ∧ out.getLast? = some '/' then out.dropLast
    else out

/-- What `resolve_rel_url` returns: the empty string, `base_url`, or `uri_asurlstr` of a `uri_type`,
that function lying outside the sources. -/
inductive Resolved
  | empty
  | given (url : List Char)
  | built (u : Uri)
  deriving DecidableEq, Repr

/-- The `uri_type url` that `resolve_rel_url` fills; its `type` and `path_type` are never
set, and they are fixed here. -/
def freshUri : Uri := ⟨[], .relative, .relPath, ⟨[], 0⟩, [], [], []⟩

/-- The reference path after a prefix of the base path: `/` for an empty one, all of `/`, and
otherwise the base path, less one trailing `/`, up to and with its last `/`. -/
def mergePath (basePath relPath : List Char) : List Char :=
  if basePath = [] then '/' :: relPath
  else if basePath = ['/'] then basePath ++ relPath
  else
    let b := if basePath.getLast? = some '/' then basePath.dropLast else basePath
    (b.reverse.dropWhile (· ≠ '/')).reverse ++ relPath

/-- `resolve_rel_url` once both URLs have parsed, `rel.path` already through `remove_dots`. -/
def resolveParsed (base rel : Uri) : Uri :=
  if rel.hostport.text ≠ [] then
    { freshUri with
      scheme := base.scheme, fragment := rel.fragment
      hostport := rel.hostport, path := rel.path, query := rel.query }
  else if rel.path = [] then
    { freshUri with
      scheme := base.scheme, fragment := rel.fragment
      hostport := base.hostport, path := base.path
      query := if rel.query ≠ [] then rel.query else base.query }
  else if rel.path.head? = some '/' then
    { freshUri with
      scheme := base.scheme, fragment := rel.fragment
      hostport := base.hostport, path := rel.path }
  else
    { freshUri with
      scheme := base.scheme, fragment := rel.fragment
      hostport := base.hostport, path := mergePath base.path rel.path
      query := if base.path = [] then [] else rel.query }

def resolveRelUrl (net : Net) (baseUrl relUrl : List Char) : Resolved :=
  if baseUrl = [] then .empty else
  match parseUri net baseUrl with
  | .error _ => .empty
  | .ok base =>
    if base.type ≠ .absolute then .empty
    else if relUrl = [] then .given baseUrl
    else
      match parseUri net relUrl with
      | .error _ => .empty
      | .ok rel =>
        let rel := { rel with path := removeDots rel.path }
        if rel.type = .absolute then .built rel else .built (resolveParsed base rel)

structure Ref where
  scheme : Option (List Char)
  authority : Option (List Char)
  path : List Char
  query : Option (List Char)
  fragment : Option (List Char)
  deriving DecidableEq, Repr

def dropLastSegment (output : List Char) : List Char :=
  ((output.reverse.dropWhile (· ≠ '/')).drop 1).reverse

/-- RFC 3986 §5.2.4 `remove_dot_segments`, rules A to E on the input and output buffers;
each pass shortens the input, so its length is enough fuel. -/
def removeDotSegmentsLoop : Nat → List Char → List Char → List Char
  | 0, _, output => output
  | fuel + 1, input, output =>
    match input with
    | [] => output
    | '.' :: '.' :: '/' :: rest => removeDotSegmentsLoop fuel rest output
    | '.' :: '/' :: rest => removeDotSegmentsLoop fuel rest output
    | '/' :: '.' :: '/' :: rest => removeDotSegmentsLoop fuel ('/' :: rest) output
    | ['/', '.'] => removeDotSegmentsLoop fuel ['/'] output
    | '/' :: '.' :: '.' :: '/' :: rest =>
      removeDotSegmentsLoop fuel ('/' :: rest) (dropLastSegment output)
    | ['/', '.', '.'] => removeDotSegmentsLoop fuel ['/'] (dropLastSegment output)
    | ['.'] | ['.', '.'] => output
    | '/' :: rest =>
      removeDotSegmentsLoop fuel (rest.dropWhile (· ≠ '/'))
        (output ++ '/' :: rest.takeWhile (· ≠ '/'))
    | c :: rest =>
      removeDotSegmentsLoop fuel ((c :: rest).dropWhile (· ≠ '/'))
        (output ++ (c :: rest).takeWhile (· ≠ '/'))

def removeDotSegments (path : List Char) : List Char :=
  removeDotSegmentsLoop path.length path []

def merge (base : Ref) (refPath : List Char) : List Char :=
  if base.authority.isSome ∧ base.path = [] then '/' :: refPath
  else (base.path.reverse.dropWhile (· ≠ '/')).reverse ++ refPath

/-- RFC 3986 §5.2.2, the target `T` of reference `r` against `base`. -/
def rfcResolve (base r : Ref) : Ref :=
  if r.scheme.isSome then { r with path := removeDotSegments r.path }
  else if r.authority.isSome then
    { r with scheme := base.scheme, path := removeDotSegments r.path }
  else if r.path = [] then
    { r with
      scheme := base.scheme, authority := base.authority, path := base.path
      query := if r.query.isSome then r.query else base.query }
  else if r.path.head? = some '/' then
    { r with
      scheme := base.scheme, authority := base.authority
      path := removeDotSegments r.path }
  else
    { r with
      scheme := base.scheme, authority := base.authority
      path := removeDotSegments (merge base r.path) }

def uriRef (u : Uri) : Ref where
  scheme := if u.type = .absolute then some u.scheme else none
  authority := if u.hostport.text = [] then none else some u.hostport.text
  path := u.path
  query := if u.query = [] then none else some u.query
  fragment := if u.fragment = [] then none else some u.fragment

def Ref.parts (t : Ref) : List (List Char) :=
  [t.scheme.getD [], t.authority.getD [], t.path, t.query.getD [], t.fragment.getD []]

def uriParts (u : Uri) : List (List Char) :=
  [u.scheme, u.hostport.text, u.path, u.query, u.fragment]

example : removeDotSegments "/a/b/c/./../../g".toList = "/a/g".toList := by decide

example : removeDotSegments "mid/content=5/../6".toList = "mid/6".toList := by decide

example : removeDots "/a/./b/../c/".toList = "/a/c/".toList := by decide

theorem getD_ite_nil (l : List Char) :
    (if l = [] then none else some l).getD [] = l := by
  split_ifs with h <;> simp [h]

theorem removeDots_nil : removeDots [] = [] := rfl

theorem resolveParsed_query (base rel : Uri) :
    (resolveParsed base rel).query =
      if rel.hostport.text ≠ [] then rel.query
      else if rel.path = [] then (if rel.query ≠ [] then rel.query else base.query)
      else if rel.path.head? = some '/' then []
      else if base.path = [] then [] else rel.query := by
  simp only [resolveParsed, apply_ite Uri.query]
  rfl

theorem rfcResolve_query (b : Ref) {r : Ref} (hs : r.scheme = none) :
    (rfcResolve b r).query =
      if r.authority.isNone ∧ r.path = [] ∧ r.query.isNone then b.query else r.query := by
  simp only [rfcResolve, hs, Option.isSome_none, Bool.false_eq_true, if_false, apply_ite Ref.query]
  cases r.authority <;> cases r.query <;> by_cases hp : r.path = [] <;> simp [hp]

/-- The query `resolve_rel_url` hands on is the RFC 3986 target's, except for a relative path:
the base's query where `remove_dots` empties it, none where it starts with `/` or the base path is
empty. -/
theorem resolve_rel_url_query {net : Net} {baseUrl relUrl : List Char} {base rel u : Uri}
    (hb : parseUri net baseUrl = .ok base) (hr : parseUri net relUrl = .ok rel)
    (h : resolveRelUrl net baseUrl relUrl = .built u) :
    u.query =
      if rel.type ≠ .absolute ∧ rel.hostport.text = [] ∧ rel.path ≠ [] ∧
          removeDots rel.path = [] then
        if rel.query = [] then base.query else rel.query
      else if rel.type ≠ .absolute ∧ rel.hostport.text = [] ∧ removeDots rel.path ≠ [] ∧
          ((removeDots rel.path).head? = some '/' ∨ base.path = []) then []
      else (rfcResolve (uriRef base) (uriRef rel)).query.getD [] := by
  unfold resolveRelUrl at h
  simp only [hb, hr] at h
  split_ifs at h with h0 habs h1 hrel <;> cases h
  · simp [rfcResolve, uriRef, hrel, getD_ite_nil]
  · rw [resolveParsed_query, rfcResolve_query _ (by simp [uriRef, hrel])]
    simp only [uriRef, hrel, Option.isNone_iff_eq_none, ite_eq_right_iff, reduceCtorEq,
      imp_false, ne_eq, not_false_eq_true, true_and]
    by_cases hh : rel.hostport.text = []
    · by_cases hd : removeDots rel.path = []
      · by_cases hp : rel.path = []
        · by_cases hq : rel.query = [] <;> simp [hh, hp, hq, removeDots_nil, getD_ite_nil]
        · by_cases hq : rel.query = [] <;> simp [hh, hp, hd, hq, getD_ite_nil]
      · have hp : rel.path ≠ [] := fun hp ↦ hd (by rw [hp, removeDots_nil])
        by_cases hs : (removeDots rel.path).head? = some '/' <;>
          by_cases hb : base.path = [] <;> simp [hh, hd, hp, hs, hb, getD_ite_nil]
    · simp [hh, getD_ite_nil]

theorem resolve_rel_url_query_empty_base :
    ∃ base rel u, parseUri sampleNet "http://1.2.3.4:80".toList = .ok base ∧
      parseUri sampleNet "c?q".toList = .ok rel ∧
      resolveRelUrl sampleNet "http://1.2.3.4:80".toList "c?q".toList = .built u ∧
      u.query =
        if rel.type ≠ .absolute ∧ rel.hostport.text = [] ∧ rel.path ≠ [] ∧
            removeDots rel.path = [] then
          if rel.query = [] then base.query else rel.query
        else if rel.type ≠ .absolute ∧ rel.hostport.text = [] ∧ removeDots rel.path ≠ [] ∧
            ((removeDots rel.path).head? = some '/' ∨ base.path = []) then []
        else (rfcResolve (uriRef base) (uriRef rel)).query.getD [] :=
  ⟨_, _, _, rfl, rfl, rfl,
    @resolve_rel_url_query sampleNet "http://1.2.3.4:80".toList "c?q".toList _ _ _ rfl rfl rfl⟩

example : ∃ base rel u, parseUri sampleNet "http://1.2.3.4:80".toList = .ok base ∧
    parseUri sampleNet "c?q".toList = .ok rel ∧
    resolveRelUrl sampleNet "http://1.2.3.4:80".toList "c?q".toList = .built u ∧
    (rfcResolve (uriRef base) (uriRef rel)).parts =
      ["http".toList, "1.2.3.4:80".toList, "/c".toList, ['q'], []] ∧
    uriParts u = ["http".toList, "1.2.3.4:80".toList, "/c".toList, [], []] :=
  ⟨_, _, _, rfl, rfl, rfl, rfl, rfl⟩

/-- `/c?q` against `http://1.2.3.4:80/a/b`: RFC 3986 gives `http://1.2.3.4:80/c?q`, while
`resolve_rel_url` hands on path `/c` with an empty query. -/
theorem resolve_rel_url_loses_query :
    ∃ base rel u, parseUri sampleNet "http://1.2.3.4:80/a/b".toList = .ok base ∧
      parseUri sampleNet "/c?q".toList = .ok rel ∧
      resolveRelUrl sampleNet "http://1.2.3.4:80/a/b".toList "/c?q".toList = .built u ∧
      (rfcResolve (uriRef base) (uriRef rel)).parts =
        ["http".toList, "1.2.3.4:80".toList, "/c".toList, ['q'], []] ∧
      uriParts u = ["http".toList, "1.2.3.4:80".toList, "/c".toList, [], []] :=
  ⟨_, _, _, rfl, rfl, rfl, rfl, rfl⟩

end Npupnp.Uri.Resolve
