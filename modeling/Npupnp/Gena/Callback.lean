import Mathlib.Data.Nat.Digits
import Npupnp.Uri.Parse

namespace Npupnp.Gena.Callback

open Basic Uri.Parse

inductive Family
  | ipv4
  | ipv6
  deriving DecidableEq, Repr

/-- The `NetIF::IPAddr` that `myCallbackUrl` reads: its family and `straddr()`, the address in
`inet_ntop` form. -/
structure IPAddr where
  family : Family
  straddr : List Char
  deriving DecidableEq, Repr

/-- `LOCAL_PORT_V4` and `LOCAL_PORT_V6`, the `unsigned short` ports of the mini-server; they
are set outside the sources. -/
structure LocalPorts where
  v4 : UInt16
  v6 : UInt16
  deriving DecidableEq, Repr

def callbackPort (ports : LocalPorts) (a : IPAddr) : UInt16 :=
  if a.family = .ipv6 then ports.v6 else ports.v4

/-- `myCallbackUrl`: `http://`, the address (in brackets for IPv6), `:` and the port in the
decimal digits `operator<<` prints. `gena_subscribe` sends it as `CALLBACK: <url/>`. -/
def myCallbackUrl (ports : LocalPorts) (a : IPAddr) : List Char :=
  "http://".toList ++ (if a.family = .ipv6 then ['['] else []) ++ a.straddr ++
    (if a.family = .ipv6 then [']'] else []) ++
    ':' :: Nat.toDigits 10 (callbackPort ports a).toNat

def IPAddr.ntopPrinted (net : Net) (a : IPAddr) : Bool :=
  decide (a.straddr.length ≤ 45) &&
    match a.family with
    | .ipv4 => a.straddr.all (fun c ↦ c.isDigit || c == '.') && ipv4Shaped a.straddr &&
        net.inetPton4 a.straddr
    | .ipv6 => a.straddr.all ipv6Char && net.inetPton6 a.straddr

theorem foldl_digits (a : Nat) (l : List Char) :
    l.foldl (fun n c ↦ 10 * n + (c.toNat - '0'.toNat)) a = a * 10 ^ l.length + digitsValue l := by
  induction l generalizing a with
  | nil => simp [digitsValue]
  | cons c l ih =>
    simp only [digitsValue, List.foldl_cons, List.length_cons] at ih ⊢
    rw [ih, ih (10 * 0 + _)]
    ring

theorem digitsValue_cons (c : Char) (l : List Char) :
    digitsValue (c :: l) = (c.toNat - '0'.toNat) * 10 ^ l.length + digitsValue l := by
  rw [digitsValue, List.foldl_cons, foldl_digits]
  simp

theorem digitChar_lt_ten : ∀ d < 10,
    (Nat.digitChar d).isDigit ∧ (Nat.digitChar d).toNat - '0'.toNat = d := by
  decide

theorem toDigitsCore_digits (f n : Nat) (ds : List Char) (hf : n < f)
    (hds : ∀ c ∈ ds, c.isDigit) :
    (∀ c ∈ Nat.toDigitsCore 10 f n ds, c.isDigit) ∧
      digitsValue (Nat.toDigitsCore 10 f n ds) = n * 10 ^ ds.length + digitsValue ds := by
  induction f generalizing n ds with
  | zero => omega
  | succ f ih =>
    obtain ⟨hd, hv⟩ := digitChar_lt_ten (n % 10) (Nat.mod_lt n (by decide))
    have hds' : ∀ c ∈ Nat.digitChar (n % 10) :: ds, c.isDigit := List.forall_mem_cons.2 ⟨hd, hds⟩
    simp only [Nat.toDigitsCore]
    split_ifs with h0
    · refine ⟨hds', ?_⟩
      rw [digitsValue_cons, hv, Nat.mod_eq_of_lt (by omega)]
    · obtain ⟨h1, h2⟩ := ih (n / 10) _ (by omega) hds'
      refine ⟨h1, ?_⟩
      rw [h2, digitsValue_cons, hv, List.length_cons]
      conv_rhs => rw [← Nat.div_add_mod n 10]
      ring

theorem toDigits_digits (n : Nat) :
    (∀ c ∈ Nat.toDigits 10 n, c.isDigit) ∧ digitsValue (Nat.toDigits 10 n) = n := by
  simpa [digitsValue] using toDigitsCore_digits (n + 1) n [] (by omega) (by simp)

theorem toDigits_port_length (p : UInt16) : (Nat.toDigits 10 p.toNat).length ≤ 5 :=
  Nat.toDigitsCore_length 10 (by decide) _ _ 5
    (Nat.lt_trans (p.val.isLt : p.toNat < 65536) (by decide)) (by decide)

theorem workCopy_of_short {l : List Char} (hn : ∀ c ∈ l, c ≠ '\x00') (hl : l.length ≤ 255) :
    (l.takeWhile (· != '\x00')).take 255 = l := by
  rw [List.takeWhile_eq_self_iff.2 fun c hc ↦ bne_iff_ne.2 (hn c hc), List.take_of_length_le hl]

theorem breakAt_append {c : Char} {pre post : List Char} (hc : c ∉ pre) :
    breakAt c (pre ++ c :: post) = (pre, some post) := by
  induction pre with
  | nil => simp [breakAt]
  | cons x pre ih =>
    have hx : x ≠ c := fun h ↦ hc (h ▸ List.mem_cons_self _ _)
    simp [breakAt, hx, ih fun h ↦ hc (List.mem_cons_of_mem _ h)]

theorem hostportOf_digits {input ds : List Char} {size : Nat} (hd : ∀ c ∈ ds, c.isDigit)
    (hv : digitsValue ds < 2 ^ 16) :
    hostportOf input true true size (ds ++ ['/']) =
      if digitsValue ds = 0 then .error .invalidUrl
      else .ok ⟨input.take (size + ds.length), digitsValue ds⟩ := by
  have ht : (['/'] : List Char).head? = none ∨ (['/'] : List Char).head? = some '/' := .inr rfl
  have hp : (min (digitsValue ds : Int) (2 ^ 63 - 1) % 2 ^ 16).toNat = digitsValue ds := by
    omega
  unfold hostportOf
  rw [atoiPort_digits hd ht, takeWhile_digits hd ht, hp]
  simp only [Bool.true_and, beq_iff_eq, if_true]

theorem ne_nul_of_isDigit {c : Char} (hc : c.isDigit) : c ≠ '\x00' := by
  rintro rfl
  exact absurd hc (by decide)

theorem ne_nul_of_ipv6Char {c : Char} (hc : ipv6Char c) : c ≠ '\x00' := by
  rintro rfl
  exact absurd hc (by decide)

theorem toNat_eq_zero {p : UInt16} : p.toNat = 0 ↔ p = 0 :=
  ⟨fun h ↦ UInt16.eq_of_val_eq (Fin.ext h), fun h ↦ h ▸ rfl⟩

section Host

variable {net : Net} {h : List Char} (p : UInt16)

theorem parseHostport_ipv4_port (hh : ∀ c ∈ h, c.isDigit ∨ c = '.') (hv4 : ipv4Shaped h = true)
    (hnet : net.inetPton4 h = true) (hlen : h.length ≤ 45) :
    parseHostport net ((h ++ ':' :: Nat.toDigits 10 p.toNat) ++ ['/']) =
      if p = 0 then .error .invalidUrl else .ok ⟨h ++ ':' :: Nat.toDigits 10 p.toNat, p.toNat⟩ := by
  obtain ⟨hd, hv⟩ := toDigits_digits p.toNat
  have h5 := toDigits_port_length p
  generalize Nat.toDigits 10 p.toNat = ds at hd hv h5 ⊢
  have hnul : ∀ c ∈ h ++ ':' :: (ds ++ ['/']), c ≠ '\x00' :=
    List.forall_mem_append.2 ⟨fun c hc ↦ (hh c hc).elim ne_nul_of_isDigit (· ▸ by decide),
      List.forall_mem_cons.2 ⟨by decide,
        List.forall_mem_append.2 ⟨fun c hc ↦ ne_nul_of_isDigit (hd c hc), by decide⟩⟩⟩
  rw [List.append_assoc, List.cons_append,
    parseHostport_ipv4 (workCopy_of_short hnul (by simp; omega)) hh hv4 hnet,
    hostportOf_digits hd (by rw [hv]; exact p.val.isLt), hv,
    show h ++ ':' :: (ds ++ ['/']) = (h ++ ':' :: ds) ++ ['/'] by simp,
    List.take_left' (by simp; omega)]
  simp only [toNat_eq_zero]

theorem parseHostport_ipv6_port (hh : ∀ c ∈ h, ipv6Char c = true)
    (hnet : net.inetPton6 h = true) (hlen : h.length ≤ 45) :
    parseHostport net (('[' :: (h ++ ']' :: ':' :: Nat.toDigits 10 p.toNat)) ++ ['/']) =
      if p = 0 then .error .invalidUrl
      else .ok ⟨'[' :: (h ++ ']' :: ':' :: Nat.toDigits 10 p.toNat), p.toNat⟩ := by
  obtain ⟨hd, hv⟩ := toDigits_digits p.toNat
  have h5 := toDigits_port_length p
  generalize Nat.toDigits 10 p.toNat = ds at hd hv h5 ⊢
  have hnul : ∀ c ∈ '[' :: (h ++ ']' :: ':' :: (ds ++ ['/'])), c ≠ '\x00' :=
    List.forall_mem_cons.2 ⟨by decide, List.forall_mem_append.2
      ⟨fun c hc ↦ ne_nul_of_ipv6Char (hh c hc), List.forall_mem_cons.2 ⟨by decide,
        List.forall_mem_cons.2 ⟨by decide,
          List.forall_mem_append.2 ⟨fun c hc ↦ ne_nul_of_isDigit (hd c hc), by decide⟩⟩⟩⟩⟩
  have hbr : ']' ∉ h := fun hm ↦ absurd (hh _ hm) (by decide)
  have hin : ('[' :: (h ++ ']' :: ':' :: ds)) ++ ['/'] = '[' :: (h ++ ']' :: ':' :: (ds ++ ['/'])) :=
    by simp
  unfold parseHostport
  rw [hin, workCopy_of_short hnul (by simp; omega)]
  simp only [breakAt_append hbr, hnet]
  rw [hostportOf_digits hd (by rw [hv]; exact p.val.isLt), hv, ← hin,
    List.take_left' (by simp; omega)]
  simp only [toNat_eq_zero]

end Host

theorem parseUri_http {net : Net} {url T : List Char} {p : UInt16}
    (hurl : url = "http://".toList ++ T)
    (hp : parseHostport net (T ++ ['/']) =
      if p = 0 then .error .invalidUrl else .ok ⟨T, p.toNat⟩) :
    parseUri net (url ++ ['/']) =
      if p = 0 then .error .invalidUrl
      else .ok ⟨"http".toList, .absolute, .absPath, ⟨url.drop 7, p.toNat⟩, ['/'], [], []⟩ := by
  have hparse : parseUri net ("http://".toList ++ (T ++ ['/'])) =
      match parseHostport net (T ++ ['/']) with
      | .ok hp => .ok (uriOf "http".toList hp ((T ++ ['/']).drop hp.text.length))
      | .error e => .error e := rfl
  have hdrop : ("http://".toList ++ T).drop 7 = T := List.drop_left' rfl
  rw [hurl, List.append_assoc, hparse, hp, hdrop]
  split_ifs
  · rfl
  · dsimp only
    rw [List.drop_left]
    rfl

/-- `parse_uri` reads the printed `CALLBACK` URL back: scheme `http`, the address and port as host
and port text, the family's mini-server port, and path `/`; the one failure is port 0. -/
theorem callback_url_round_trip {net : Net} {ports : LocalPorts} {a : IPAddr}
    (ha : a.ntopPrinted net = true) :
    parseUri net (myCallbackUrl ports a ++ ['/']) =
      if callbackPort ports a = 0 then .error .invalidUrl
      else .ok ⟨"http".toList, .absolute, .absPath,
        ⟨(myCallbackUrl ports a).drop 7, (callbackPort ports a).toNat⟩, ['/'], [], []⟩ := by
  obtain ⟨fam, h⟩ := a
  cases fam <;>
    simp only [IPAddr.ntopPrinted, Bool.and_eq_true, List.all_eq_true, Bool.or_eq_true,
      beq_iff_eq, decide_eq_true_eq] at ha
  · exact parseUri_http (by simp [myCallbackUrl, callbackPort])
      (parseHostport_ipv4_port _ ha.2.1.1 ha.2.1.2 ha.2.2 ha.1)
  · exact parseUri_http (by simp [myCallbackUrl, callbackPort])
      (parseHostport_ipv6_port _ ha.2.1 ha.2.2 ha.1)

theorem callback_url_round_trip_lan :
    IPAddr.ntopPrinted sampleNet ⟨.ipv4, "192.168.1.10".toList⟩ = true ∧
      parseUri sampleNet (myCallbackUrl ⟨49152, 49153⟩ ⟨.ipv4, "192.168.1.10".toList⟩ ++ ['/']) =
        if callbackPort ⟨49152, 49153⟩ ⟨.ipv4, "192.168.1.10".toList⟩ = 0 then .error .invalidUrl
        else .ok ⟨"http".toList, .absolute, .absPath,
          ⟨(myCallbackUrl ⟨49152, 49153⟩ ⟨.ipv4, "192.168.1.10".toList⟩).drop 7,
            (callbackPort ⟨49152, 49153⟩ ⟨.ipv4, "192.168.1.10".toList⟩).toNat⟩, ['/'], [], []⟩ :=
  ⟨by decide, callback_url_round_trip (by decide)⟩

example : myCallbackUrl ⟨49152, 49153⟩ ⟨.ipv6, "fe80::1".toList⟩ =
    "http://[fe80::1]:49153".toList := by
  decide

end Npupnp.Gena.Callback
