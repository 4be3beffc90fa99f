import Npupnp.Gena.Sequential

namespace Npupnp.Gena.Receive

open Basic Notify Machine Race Sequential

section Spec

/-- Modelled from the spec (§4.4): `SEQ` is a decimal numeral whose value is at most
`2^32 - 1`, and that value is the event key. -/
def specSeq (seq : String) : Option Int :=
  if seq.toList ≠ [] ∧ seq.toList.all Char.isDigit ∧ digitsValue seq.toList < 2 ^ 32 then
    some (digitsValue seq.toList)
  else none

/-- Modelled from the spec (§4.4): the validation pipeline, first failure wins, giving the failed
check's status or the SID, the event key `readSeq` reads and the parsed body's events. -/
def validate (readSeq : String → Option Int) (txn : Transaction) :
    Except Nat (String × Int × List XmlEvent) := do
  let some sid := txn.headers.lookup "sid" | throw 412
  let some seq := txn.headers.lookup "seq" | throw 400
  let some key := readSeq seq | throw 400
  let some nt := txn.headers.lookup "nt" | throw 400
  let some nts := txn.headers.lookup "nts" | throw 400
  unless nt == "upnp:event" && nts == "upnp:propchange" do throw 412
  unless txn.xmlContent && txn.postdata != "" do throw 400
  let some evs := txn.events | throw 400
  return (sid, key, evs)

def correlate (client : Option Nat) (subs : List ClientSubscription) (sid : String) (key : Int)
    (propset : List (String × String)) : Nat × Option (Nat × Upcall) :=
  match client with
  | none => (412, none)
  | some h =>
    if subs.any (·.sid = sid) then (200, some (h, .eventReceived sid key propset))
    else (412, none)

def answer (readSeq : String → Option Int) (client : Option Nat)
    (subs : List ClientSubscription) (txn : Transaction) : Nat × Option (Nat × Upcall) :=
  match validate readSeq txn with
  | .error status => (status, none)
  | .ok (sid, key, evs) => correlate client subs sid key (parsePropertyset evs)

theorem validateNotification_eq (txn : Transaction) :
    validateNotification txn = match validate scanEventKey txn with
      | .error status => .reply status
      | .ok (sid, key, evs) => .proceed sid key (parsePropertyset evs) := by
  unfold validateNotification validate
  cases h1 : txn.headers.lookup "sid" with
  | none => rfl
  | some sid =>
    cases h2 : txn.headers.lookup "seq" with
    | none => simp only [h2]
    | some seq =>
      cases h3 : scanEventKey seq with
      | none => simp only [h2, h3]
      | some key =>
        cases h4 : txn.headers.lookup "nt" <;> cases h5 : txn.headers.lookup "nts" <;>
          simp only [h2, h3, h4, h5]
        simp only [ne_eq, beq_iff_eq, Bool.and_eq_true, bne_iff_ne, Bool.or_eq_true,
          Bool.not_eq_true', decide_eq_true_eq]
        split_ifs <;> (try cases txn.events) <;> first | rfl | simp_all

theorem answer_scanEventKey (client : Option Nat) (subs : List ClientSubscription)
    (txn : Transaction) :
    answer scanEventKey client subs txn = match validateNotification txn with
      | .reply status => (status, none)
      | .proceed sid key propset => correlate client subs sid key propset := by
  rw [validateNotification_eq, answer]
  rcases validate scanEventKey txn with _ | ⟨_, _, _⟩ <;> rfl

theorem digit_not_space {c : Char} (hc : c.isDigit) : isSpace c = false ∧ c ≠ '-' ∧ c ≠ '+' := by
  simp only [Char.isDigit, Bool.and_eq_true, decide_eq_true_eq] at hc
  refine ⟨?_, ?_, ?_⟩
  · simp only [isSpace, Bool.or_eq_false_iff, decide_eq_false_iff_not]
    refine ⟨⟨⟨⟨⟨?_, ?_⟩, ?_⟩, ?_⟩, ?_⟩, ?_⟩ <;> rintro rfl <;> simp at hc
  all_goals rintro rfl; simp at hc

theorem toInt32_of_lt {v : Int} (h0 : 0 ≤ v) (h : v < 2 ^ 32) :
    toInt32 v = if v < 2 ^ 31 then v else v - 2 ^ 32 := by
  unfold toInt32
  dsimp only
  rw [min_eq_left (by omega), max_eq_right (by omega)]
  split_ifs <;> omega

theorem scanEventKey_of_specSeq {seq : String} {v : Int} (h : specSeq seq = some v) :
    scanEventKey seq = some (if v < 2 ^ 31 then v else v - 2 ^ 32) := by
  unfold specSeq at h
  split_ifs at h with hs
  cases h
  obtain ⟨hne, hd, hlt⟩ := hs
  simp only [List.all_eq_true] at hd
  obtain ⟨c, r, hcr⟩ := List.exists_cons_of_ne_nil hne
  have hr : r.takeWhile Char.isDigit = r :=
    List.takeWhile_eq_self_iff.2 fun x hx ↦ hd x (hcr ▸ List.mem_cons_of_mem c hx)
  have hnul : seq.toList.takeWhile (· ≠ '\x00') = seq.toList :=
    List.takeWhile_eq_self_iff.2 fun x hx ↦ decide_eq_true fun e ↦ by simpa [e] using hd x hx
  have hc := hd c (hcr ▸ List.mem_cons_self c r)
  obtain ⟨hsp, hm, hp⟩ := digit_not_space hc
  rw [hcr] at hlt ⊢
  unfold scanEventKey
  rw [hnul, hcr]
  simp only [List.dropWhile_cons, hsp, Bool.false_eq_true, if_false]
  rw [← cond_eq_if]
  split
  · rename_i heq
    exact absurd (List.cons.inj heq).1 hm
  · rename_i heq
    exact absurd (List.cons.inj heq).1 hp
  · simp only [List.takeWhile_cons, hc, if_true, hr, List.isEmpty_cons, ne_eq,
      not_true_eq_false, decide_False, Bool.or_self, cond_false, Bool.false_eq_true, if_false]
    exact congrArg some (toInt32_of_lt (by omega) (by exact_mod_cast hlt))

end Spec

section Run

variable {cfg : Config} {i : Input} {t : Nat} {s : Gena}

def Answered (s s' : Gena) (t : Nat) (a : Nat × Option (Nat × Upcall)) : Prop :=
  s'.threads t = .finished ∧ s'.responses = s.responses ++ [(t, a.1)] ∧
    s'.upcalls = s.upcalls ++ (a.2.map fun u ↦ (t, u.1, u.2)).toList

theorem any_sid_iff {subs : List ClientSubscription} {sid : String} :
    subs.any (·.sid = sid) = (findSid subs sid).isSome :=
  Bool.eq_iff_iff.2 (by simp [findSid])

theorem answered_correlate {sid : String} {key : Int} {ps : List (String × String)}
    (hp : s.threads t = .notifyLookup sid key ps) (hr : s.readers = [])
    (ho : s.subscribeOwner = none) :
    Answered s (runThread cfg t i 4 s) t (correlate s.client s.subs sid key ps) := by
  unfold correlate
  rw [any_sid_iff]
  cases hc : s.client with
  | none => simp [runThread, stepProc, hp, hr, hc, Answered, stepProc_of_terminal]
  | some h =>
    cases hf : findSid s.subs sid with
    | some e => simp [runThread, stepProc, hp, hr, hc, hf, Answered, findSid_sid hf]
    | none =>
      by_cases hk : key = 0
      · simp [runThread, stepProc, hp, hr, hc, hf, hk, ho, Answered]
      · simp [runThread, stepProc, hp, hr, hc, hf, hk, Answered]

theorem Answered.of_setProc {s' : Gena} {u : Nat} {p : Proc} {a : Nat × Option (Nat × Upcall)}
    (h : Answered (s.setProc u p) s' t a) : Answered s s' t a := h

theorem validateNotification_reply {txn : Transaction} {status : Nat}
    (h : validateNotification txn = .reply status) : status = 400 ∨ status = 412 := by
  unfold validateNotification at h
  repeat' split at h
  all_goals cases h
  all_goals simp

theorem answer_callback_iff (client : Option Nat) (subs : List ClientSubscription)
    (txn : Transaction) :
    (answer scanEventKey client subs txn).2.isSome ↔
      (answer scanEventKey client subs txn).1 = 200 := by
  rw [answer_scanEventKey]
  cases hv : validateNotification txn with
  | reply status => rcases validateNotification_reply hv with rfl | rfl <;> simp
  | proceed sid key ps =>
    dsimp only [correlate]
    split
    · simp
    · split_ifs <;> simp

theorem answered_notify {txn : Transaction} (hp : s.threads t = .notifyEntry txn)
    (hr : s.readers = []) (ho : s.subscribeOwner = none) :
    Answered s (runThread cfg t i 5 s) t (answer scanEventKey s.client s.subs txn) := by
  rw [answer_scanEventKey]
  cases hv : validateNotification txn with
  | reply status => simp [runThread, stepProc, hp, hv, Answered, stepProc_of_terminal]
  | proceed sid key ps =>
    have hs : stepProc cfg i t s = some (s.setProc t (.notifyLookup sid key ps)) := by
      simp [stepProc, hp, hv]
    have hq : (s.setProc t (.notifyLookup sid key ps)).threads t = .notifyLookup sid key ps := by
      simp
    rw [runThread_step hs]
    exact (answered_correlate hq hr ho).of_setProc

theorem runThread_of_finished {k n : Nat} (hk : k ≤ n)
    (hf : (runThread cfg t i k s).threads t = .finished) :
    runThread cfg t i n s = runThread cfg t i k s := by
  obtain ⟨m, rfl⟩ := Nat.exists_eq_add_of_le hk
  have ht : terminal ((runThread cfg t i k s).threads t) := by simp [hf, terminal]
  rw [runThread_add, runThread_of_terminal ht]

/-- `gena_process_notification_event` run alone answers within five sections as the spec's pipeline
says, `SEQ` read by `sscanf("%d%1c")` wrapped to an `int`, and calls back iff it answers 200. -/
theorem notification_answer_sscanf {cfg : Config} {i : Input} {t n : Nat} {s : Gena}
    {txn : Transaction} (hp : s.threads t = .notifyEntry txn) (hr : s.readers = [])
    (ho : s.subscribeOwner = none) (hn : 5 ≤ n) :
    (Answered s (runThread cfg t i n s) t (answer scanEventKey s.client s.subs txn) ∧
      ((answer scanEventKey s.client s.subs txn).2.isSome ↔
        (answer scanEventKey s.client s.subs txn).1 = 200)) ∧
    ∀ seq v, specSeq seq = some v →
      scanEventKey seq = some (if v < 2 ^ 31 then v else v - 2 ^ 32) := by
  have h5 : Answered s (runThread cfg t i 5 s) t _ := answered_notify hp hr ho
  rw [runThread_of_finished hn h5.1]
  exact ⟨⟨h5, answer_callback_iff _ _ _⟩, fun _ _ ↦ scanEventKey_of_specSeq⟩

def seqNotify (seq : String) : Transaction where
  headers := [("sid", "uuid:x"), ("seq", seq), ("nt", "upnp:event"), ("nts", "upnp:propchange")]
  xmlContent := true
  postdata := "<e:propertyset><e:property><Foo>1</Foo></e:property></e:propertyset>"
  events := some [.startElement "e:propertyset", .startElement "e:property",
    .startElement "Foo", .characterData "1", .endElement "Foo", .endElement "e:property",
    .endElement "e:propertyset"]

def notifySeq (seq : String) : List Move :=
  let answer : Input := ⟨.response 200 [("sid", "uuid:x"), ("timeout", "Second-1800")], .success⟩
  [.call (.subscribe 1 "http://10.0.0.5:49152/evt" 1800), .run 0 answer, .run 0 answer,
    .run 0 answer, .run 0 answer, .call (.notify (seqNotify seq)), .run 1 answer,
    .run 1 answer, .run 1 answer]

theorem notification_answer_sscanf_minus_one :
    let s := (exec sampleConfig ((notifySeq "-1").take 6) (Gena.initial (some 1))).getD
      (Gena.initial none)
    (Answered s (runThread sampleConfig 1 ⟨.badUrl, .success⟩ 5 s) 1
        (answer scanEventKey s.client s.subs (seqNotify "-1")) ∧
      ((answer scanEventKey s.client s.subs (seqNotify "-1")).2.isSome ↔
        (answer scanEventKey s.client s.subs (seqNotify "-1")).1 = 200)) ∧
    ∀ seq v, specSeq seq = some v →
      scanEventKey seq = some (if v < 2 ^ 31 then v else v - 2 ^ 32) := by
  intro s
  exact notification_answer_sscanf rfl rfl rfl le_rfl

theorem notification_seq_accepted :
    (∃ s, exec sampleConfig (notifySeq "-1") (Gena.initial (some 1)) = some s ∧
      (answer specSeq s.client s.subs (seqNotify "-1")).1 = 400 ∧ s.responses = [(1, 200)] ∧
      s.upcalls = [(1, 1, .eventReceived "uuid:x" (-1) [("Foo", "1")])]) ∧
    ∃ s, exec sampleConfig (notifySeq "4294967295") (Gena.initial (some 1)) = some s ∧
      answer specSeq s.client s.subs (seqNotify "4294967295") =
        (200, some (1, .eventReceived "uuid:x" 4294967295 [("Foo", "1")])) ∧
      s.upcalls = [(1, 1, .eventReceived "uuid:x" (-1) [("Foo", "1")])] :=
  ⟨⟨_, rfl, by decide, rfl, rfl⟩, _, rfl, by decide, rfl⟩

end Run

end Npupnp.Gena.Receive
