import Npupnp.Gena.Basic

namespace Npupnp.Gena.Notify

open Basic

inductive XmlEvent
  | startElement (name : String)
  | endElement (name : String)
  | characterData (s : String)
  deriving DecidableEq, Repr

/-- An inbound NOTIFY: header names lowercased, `xmlContent` the verdict of `has_xml_content_type`,
and `events` the parser's callbacks on `postdata`, `none` when it does not parse. -/
structure Transaction where
  headers : List (String × String)
  xmlContent : Bool
  postdata : String
  events : Option (List XmlEvent)
  deriving DecidableEq, Repr

def isSpace (c : Char) : Bool :=
  c = ' ' || c = '\t' || c = '\n' || c = '\x0b' || c = '\x0c' || c = '\r'

/-- `(int) strtol(...)`: the value saturated to a 64-bit `long`, then wrapped to 32 bits. -/
def toInt32 (v : Int) : Int :=
  let l := max (-2 ^ 63) (min v (2 ^ 63 - 1))
  (l + 2 ^ 31) % 2 ^ 32 - 2 ^ 31

/-- `sscanf(seq.c_str(), "%d%1c", &eventKey, cb) == 1`: blanks, a sign and at least one
digit, then the end of the C string; any character left makes `%1c` match too. -/
def scanEventKey (seq : String) : Option Int :=
  let cs := (seq.toList.takeWhile (· ≠ '\x00')).dropWhile isSpace
  let (neg, rest) := match cs with
    | '-' :: r => (true, r)
    | '+' :: r => (false, r)
    | r => (false, r)
  let ds := rest.takeWhile Char.isDigit
  if ds.isEmpty || ds.length ≠ rest.length then none
  else some (toInt32 (if neg then -(digitsValue ds : Int) else digitsValue ds))

def trimChars : List Char := [' ', '\t', '\n', '\r']

/-- Modelled from the spec: smallut's `trimstring(s, " \t\n\r")`, declared but not defined in
the sources; property values are "trimmed of leading/trailing whitespace". -/
def trimstring (s : String) : String :=
  String.mk ((((s.toList.dropWhile (· ∈ trimChars)).reverse).dropWhile (· ∈ trimChars)).reverse)

def localName (s : List Char) : List Char :=
  if ':' ∈ s then (s.dropWhile (· ≠ ':')).drop 1 else s

/-- Modelled from the spec: `dom_cmp_name` compares element names without their namespace
prefix and without regard to case (`true` where the C function returns 0). -/
def domCmpName (a b : String) : Bool :=
  (localName a.toList).map Char.toLower = (localName b.toList).map Char.toLower

/-- `UPnPPropertysetParser` with the element stack `m_path` its base class keeps,
innermost element first. -/
structure PropertysetParser where
  path : List String
  chardata : String
  propdata : List (String × String)
  deriving DecidableEq, Repr

/-- `propdata[name] = value` on the `unordered_map`. -/
def setProp (name value : String) (pd : List (String × String)) : List (String × String) :=
  (name, value) :: pd.filter (fun p ↦ p.1 ≠ name)

def PropertysetParser.endElement (p : PropertysetParser) (name : String) :
    PropertysetParser :=
  let parentname := match p.path with
    | _ :: parent :: _ => parent
    | _ => "root"
  let value := trimstring p.chardata
  { p with
    chardata := ""
    propdata := if domCmpName parentname "property" then setProp name value p.propdata
      else p.propdata }

def PropertysetParser.characterData (p : PropertysetParser) (s : String) : PropertysetParser :=
  match s.toList with
  | [] => p
  | c :: _ => if c = '\x00' then p else { p with chardata := p.chardata ++ s }

def PropertysetParser.handle (p : PropertysetParser) : XmlEvent → PropertysetParser
  | .startElement name => { p with path := name :: p.path }
  | .endElement name => { p.endElement name with path := p.path.tail }
  | .characterData s => p.characterData s

def parsePropertyset (events : List XmlEvent) : List (String × String) :=
  (events.foldl PropertysetParser.handle ⟨[], "", []⟩).propdata

/-- The validation half of `gena_process_notification_event`, up to the handle lock:
either the status it answers with, or the SID, event key and property set it goes on with. -/
inductive Verdict
  | reply (status : Nat)
  | proceed (sid : String) (eventKey : Int) (propset : List (String × String))
  deriving DecidableEq, Repr

def validateNotification (txn : Transaction) : Verdict :=
  match txn.headers.lookup "sid" with
  | none => .reply 412
  | some sid =>
    match txn.headers.lookup "seq" with
    | none => .reply 400
    | some seq =>
      match scanEventKey seq with
      | none => .reply 400
      | some eventKey =>
        match txn.headers.lookup "nt", txn.headers.lookup "nts" with
        | some nt, some nts =>
          if nt ≠ "upnp:event" ∨ nts ≠ "upnp:propchange" then .reply 412
          else if !txn.xmlContent || txn.postdata = "" then .reply 400
          else
            match txn.events with
            | none => .reply 400
            | some evs => .proceed sid eventKey (parsePropertyset evs)
        | _, _ => .reply 400

end Npupnp.Gena.Notify
