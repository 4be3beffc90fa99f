import Mathlib.Algebra.Group.Int
import Mathlib.Data.List.Basic

namespace Npupnp.Gena.Basic

/-- The compile-time constants the client code reads; their values live in headers
(`upnpconfig.h`, `upnp.h`) outside the sources, so they are parameters. -/
structure Config where
  autoRenewTime : Int
  infinite : Int
  minimumSubscriptionTime : Int
  nameSize : Nat

def sampleConfig : Config := ⟨10, -1, 15, 256⟩

/-- The `UPNP_E_*` and `GENA_E_*` codes the client paths return, by name. -/
inductive Code
  | success
  | badHandle
  | badSid
  | invalidUrl
  | socketConnect
  | subscribeUnaccepted
  | unsubscribeUnaccepted
  | badResponse
  | outOfMemory
  deriving DecidableEq, Repr

structure ClientSubscription where
  renewEventId : Int
  sid : String
  eventURL : String
  deriving DecidableEq, Repr

/-- `Upnp_Event_Subscribe`, the payload of the renewal timer and of its upcalls. -/
structure EventSubscribe where
  sid : String
  errCode : Code
  publisherUrl : String
  timeOut : Int
  deriving DecidableEq, Repr

/-- A pending job of `gTimerThread`: the `upnp_timeout` built by `ScheduleGenaAutoRenew`. -/
structure RenewEvent where
  eventId : Nat
  handle : Nat
  sub : EventSubscribe
  delay : Int
  deriving DecidableEq, Repr

inductive Upcall
  | eventReceived (sid : String) (eventKey : Int) (changedVariables : List (String × String))
  | autorenewalFailed (sub : EventSubscribe)
  | subscriptionExpired (sub : EventSubscribe)
  deriving DecidableEq, Repr

/-- What the network did with one SUBSCRIBE request of `gena_subscribe`. -/
inductive Exchange
  | badUrl
  | noInterface
  | transportError
  | response (status : Nat) (headers : List (String × String))
  deriving DecidableEq, Repr

inductive SubscribeResult
  | ok (sid : String) (timeOut : Int)
  | error (code : Code)
  deriving DecidableEq, Repr

def digitsValue (ds : List Char) : Nat :=
  ds.foldl (fun n c ↦ 10 * n + (c.toNat - '0'.toNat)) 0

/-- Modelled from the spec: `timeout_header_value` (httputils, outside the sources) reads
the `TIMEOUT: Second-<N>` response header, `Second-infinite` giving `UPNP_INFINITE`. -/
def timeoutHeaderValue (cfg : Config) (headers : List (String × String)) : Option Int :=
  match headers.lookup "timeout" with
  | none => none
  | some v =>
    match v.toList with
    | 'S' :: 'e' :: 'c' :: 'o' :: 'n' :: 'd' :: '-' :: n =>
      if n = "infinite".toList then some cfg.infinite
      else if n ≠ [] ∧ n.all Char.isDigit then some (digitsValue n) else none
    | _ => none

/-- The outcome `gena_subscribe` returns for one exchange: the SID and granted timeout
of a 200 answer carrying both headers, otherwise an error code. -/
def genaSubscribe (cfg : Config) : Exchange → SubscribeResult
  | .badUrl => .error .invalidUrl
  | .noInterface => .error .socketConnect
  | .transportError => .error .socketConnect
  | .response status headers =>
    if status ≠ 200 then .error .subscribeUnaccepted
    else
      match headers.lookup "sid", headers.lookup "timeout" with
      | some sid, some _ =>
        match timeoutHeaderValue cfg headers with
        | some t => .ok sid t
        | none => .error .badResponse
      | _, _ => .error .badResponse

def findSid (subs : List ClientSubscription) (sid : String) : Option ClientSubscription :=
  subs.find? (fun e ↦ e.sid = sid)

/-- `ClientSubList.remove_if` on a SID. -/
def removeSid (subs : List ClientSubscription) (sid : String) : List ClientSubscription :=
  subs.filter (fun e ↦ e.sid ≠ sid)

def updateSid (f : ClientSubscription → ClientSubscription) (sid : String) :
    List ClientSubscription → List ClientSubscription
  | [] => []
  | e :: es => if e.sid = sid then f e :: es else e :: updateSid f sid es

def removeEvent (events : List RenewEvent) (id : Int) : List RenewEvent :=
  events.filter (fun e ↦ (e.eventId : Int) ≠ id)

@[simp] theorem findSid_nil (sid : String) : findSid [] sid = none := rfl

@[simp] theorem findSid_cons (e : ClientSubscription) (es : List ClientSubscription)
    (sid : String) : findSid (e :: es) sid = if e.sid = sid then some e else findSid es sid := by
  by_cases h : e.sid = sid <;> simp [findSid, List.find?_cons, h]

theorem findSid_sid {subs : List ClientSubscription} {sid : String} {e : ClientSubscription}
    (h : findSid subs sid = some e) : e.sid = sid := by
  simpa using List.find?_some h

theorem findSid_mem {subs : List ClientSubscription} {sid : String} {e : ClientSubscription}
    (h : findSid subs sid = some e) : e ∈ subs := List.mem_of_find?_eq_some h

theorem findSid_eq_none {subs : List ClientSubscription} {sid : String} :
    findSid subs sid = none ↔ ∀ e ∈ subs, e.sid ≠ sid := by
  simp [findSid, List.find?_eq_none]

@[simp] theorem mem_removeSid {subs : List ClientSubscription} {sid : String}
    {e : ClientSubscription} : e ∈ removeSid subs sid ↔ e ∈ subs ∧ e.sid ≠ sid := by
  simp [removeSid]

@[simp] theorem mem_removeEvent {events : List RenewEvent} {id : Int} {e : RenewEvent} :
    e ∈ removeEvent events id ↔ e ∈ events ∧ (e.eventId : Int) ≠ id := by
  simp [removeEvent]

theorem updateSid_eq_map {f : ClientSubscription → ClientSubscription} {sid : String}
    {subs : List ClientSubscription} (h : (subs.map (·.sid)).Nodup) :
    updateSid f sid subs = subs.map (fun e ↦ if e.sid = sid then f e else e) := by
  induction subs with
  | nil => rfl
  | cons e es ih =>
    simp only [List.map_cons, List.nodup_cons, List.mem_map, not_exists, not_and] at h
    by_cases he : e.sid = sid
    · simp only [updateSid, he, if_true, List.map_cons, List.cons.injEq, true_and]
      exact (List.map_congr_left fun e' he' ↦ by simp [← he, h.1 e' he']).trans
        (List.map_id _) |>.symm
    · simp [updateSid, he, ih h.2]

theorem findSid_updateSid {f : ClientSubscription → ClientSubscription} {sid : String}
    {subs : List ClientSubscription} {e : ClientSubscription} (hf : findSid subs sid = some e)
    (hs : (f e).sid = sid) : findSid (updateSid f sid subs) sid = some (f e) := by
  induction subs with
  | nil => simp at hf
  | cons e' es ih =>
    by_cases he : e'.sid = sid
    · simp only [findSid_cons, he, if_true, Option.some.injEq] at hf
      subst hf
      simp [updateSid, he, hs]
    · simp only [findSid_cons, he, if_false] at hf
      simp [updateSid, he, ih hf]

theorem map_sid_updateSid {f : ClientSubscription → ClientSubscription} {sid : String}
    (hf : ∀ e, (f e).sid = e.sid) (subs : List ClientSubscription) :
    (updateSid f sid subs).map (·.sid) = subs.map (·.sid) := by
  induction subs with
  | nil => rfl
  | cons e es ih => by_cases he : e.sid = sid <;> simp [updateSid, he, hf, ih]

end Npupnp.Gena.Basic
