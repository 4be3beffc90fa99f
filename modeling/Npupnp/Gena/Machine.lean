import Npupnp.Gena.Notify
import Mathlib.Logic.Relation

namespace Npupnp.Gena.Machine

open Basic Notify

/-- The program point of one thread, with its live locals; a `HandleLock()` section is one step,
and the points kept apart are the waits for a lock or for the network. -/
inductive Proc
  | idle
  | subscribeEntry (h : Nat) (url : String) (timeOut : Int)
  | subscribeBadHandle (h : Nat) (url : String) (timeOut : Int)
  | subscribeLock (h : Nat) (url : String) (timeOut : Int)
  | subscribeRequest (h : Nat) (url : String) (timeOut : Int)
  | subscribeRecord (h : Nat) (url : String) (timeOut : Int) (r : SubscribeResult)
  | renewEntry (h : Nat) (sid : String) (timeOut : Int) (job : Option RenewEvent)
  | renewRequest (h : Nat) (sid : String) (timeOut : Int) (copy : ClientSubscription)
      (job : Option RenewEvent)
  | renewRecord (h : Nat) (sid : String) (timeOut : Int) (copy : ClientSubscription)
      (r : SubscribeResult) (job : Option RenewEvent)
  | unsubscribeEntry (h : Nat) (sid : String)
  | unsubscribeRequest (h : Nat) (sid : String) (copy : ClientSubscription)
  | unsubscribeRemove (h : Nat) (sid : String)
  | unregisterLoop (h : Nat)
  | unregisterRequest (h : Nat) (copy : ClientSubscription)
  | notifyEntry (txn : Transaction)
  | notifyLookup (sid : String) (eventKey : Int) (propset : List (String × String))
  | notifyRetry (sid : String) (eventKey : Int) (propset : List (String × String))
  | notifyRetryLookup (sid : String) (eventKey : Int) (propset : List (String × String))
  | jobEntry (ev : RenewEvent)
  | jobCallback (h : Nat) (event : Upcall)
  | upcall (h : Nat) (event : Upcall)
  | subscribed (rc : Code) (outSid : String) (timeOut : Int)
  | renewed (rc : Code) (timeOut : Int)
  | returned (rc : Code)
  | finished
  deriving DecidableEq

/-- The shared state: the client handle and its `ClientSubList`, the lock owners, the jobs of
`gTimerThread`, every thread, and the HTTP answers and upcalls made so far. -/
structure Gena where
  client : Option Nat
  subs : List ClientSubscription
  readers : List Nat
  subscribeOwner : Option Nat
  events : List RenewEvent
  nextEventId : Nat
  threads : Nat → Proc
  spawned : Nat
  responses : List (Nat × Nat)
  upcalls : List (Nat × Nat × Upcall)

structure Input where
  exchange : Exchange
  schedule : Code

def Gena.setProc (s : Gena) (t : Nat) (p : Proc) : Gena :=
  { s with threads := Function.update s.threads t p }

def Gena.respond (s : Gena) (t status : Nat) : Gena :=
  { s with responses := s.responses ++ [(t, status)] }

/-- The job `ScheduleGenaAutoRenew` arms for an entry, with the code it returns. -/
def scheduleGenaAutoRenew (cfg : Config) (ret : Code) (h : Nat) (timeOut : Int)
    (sub : ClientSubscription) (nextId : Nat) : Option RenewEvent × Code :=
  if timeOut = cfg.infinite then (none, .success)
  else if ret = .success then
    (some ⟨nextId, h, ⟨sub.sid, .success, String.mk (sub.eventURL.toList.take (cfg.nameSize - 1)), timeOut⟩,
      timeOut - cfg.autoRenewTime⟩, .success)
  else (none, ret)

def Gena.arm (s : Gena) : Option RenewEvent → Gena
  | none => s
  | some ev => { s with events := s.events ++ [ev], nextEventId := s.nextEventId + 1 }

def armedId (old : Int) : Option RenewEvent → Int
  | none => old
  | some ev => ev.eventId

/-- `clientCancelRenew` on a copy: only its timer reaches shared state. -/
def Gena.cancelRenew (s : Gena) (copy : ClientSubscription) : Gena :=
  if copy.renewEventId ≠ -1 then { s with events := removeEvent s.events copy.renewEventId }
  else s

/-- What a finished `genaRenewSubscription` leaves its caller: the user gets the code,
the auto-renew job decides on its `UPNP_EVENT_AUTORENEWAL_FAILED` upcall. -/
def renewDone (job : Option RenewEvent) (rc : Code) (timeOut : Int) : Proc :=
  match job with
  | none => .renewed rc timeOut
  | some ev =>
    if rc ≠ .success ∧ rc ≠ .badSid ∧ rc ≠ .badHandle then
      .jobCallback ev.handle (.autorenewalFailed { ev.sub with errCode := rc, timeOut := timeOut })
    else .finished

/-- The critical section of `genaSubscribe` after the SUBSCRIBE exchange, ending with
`HandleUnlock(); SubscribeUnlock();`. -/
def recordSubscription (cfg : Config) (i : Input) (t h : Nat) (url : String) (timeOut : Int)
    (r : SubscribeResult) (s : Gena) : Gena :=
  match r with
  | .error c => { s with subscribeOwner := none }.setProc t (.subscribed c "" timeOut)
  | .ok sid granted =>
    if s.client = some h then
      let sub : ClientSubscription := ⟨-1, sid, url⟩
      let armed := scheduleGenaAutoRenew cfg i.schedule h granted sub s.nextEventId
      ({ s with
          subscribeOwner := none
          subs := { sub with renewEventId := armedId (-1) armed.1 } :: s.subs }.arm
        armed.1).setProc t (.subscribed armed.2 sid granted)
    else { s with subscribeOwner := none }.setProc t (.subscribed .badHandle "" granted)

/-- The first critical section of `genaRenewSubscription`: cancel the timer, snapshot. -/
def renewFind (t h : Nat) (sid : String) (timeOut : Int) (job : Option RenewEvent)
    (s : Gena) : Gena :=
  if s.client = some h then
    match findSid s.subs sid with
    | none => s.setProc t (renewDone job .badSid timeOut)
    | some e =>
      { s with
        events := removeEvent s.events e.renewEventId
        subs := updateSid (fun e ↦ { e with renewEventId := -1 }) sid s.subs }.setProc t
        (.renewRequest h sid timeOut { e with renewEventId := -1 } job)
  else s.setProc t (renewDone job .badHandle timeOut)

/-- The second critical section of `genaRenewSubscription`, after the renewal exchange. -/
def renewRecord (cfg : Config) (i : Input) (t h : Nat) (sid : String) (timeOut : Int)
    (copy : ClientSubscription) (r : SubscribeResult) (job : Option RenewEvent) (s : Gena) :
    Gena :=
  let timeOut' := match r with
    | .ok _ granted => granted
    | .error _ => timeOut
  if s.client = some h then
    match r with
    | .error c =>
      ({ s with subs := removeSid s.subs sid }.cancelRenew copy).setProc t
        (renewDone job c timeOut')
    | .ok newSid granted =>
      match findSid s.subs sid with
      | none => (s.cancelRenew copy).setProc t (renewDone job .badSid timeOut')
      | some e =>
        let armed := scheduleGenaAutoRenew cfg i.schedule h granted
          { e with sid := newSid } s.nextEventId
        let subs := updateSid
          (fun e ↦ { e with sid := newSid, renewEventId := armedId e.renewEventId armed.1 }) sid
          s.subs
        let kept := if armed.2 = .success then subs else removeSid subs newSid
        (Gena.cancelRenew ({ s with subs := kept }.arm armed.1) copy).setProc t
          (renewDone job armed.2 timeOut')
  else s.setProc t (renewDone job .badHandle timeOut')

/-- One step of thread `t`, `none` where it is blocked or done; a read lock is never refused,
since no write section stays open between steps. -/
def stepProc (cfg : Config) (i : Input) (t : Nat) (s : Gena) : Option Gena :=
  match s.threads t with
  | .subscribeEntry h url timeOut =>
    if s.client = some h then some (s.setProc t (.subscribeLock h url timeOut))
    else some ({ s with readers := t :: s.readers }.setProc t (.subscribeBadHandle h url timeOut))
  | .subscribeBadHandle _ _ timeOut =>
    if s.subscribeOwner = none then
      some ({ s with readers := s.readers.erase t }.setProc t (.subscribed .badHandle "" timeOut))
    else none
  | .subscribeLock h url timeOut =>
    if s.subscribeOwner = none then
      some ({ s with subscribeOwner := some t }.setProc t (.subscribeRequest h url timeOut))
    else none
  | .subscribeRequest h url timeOut =>
    some (s.setProc t (.subscribeRecord h url timeOut (genaSubscribe cfg i.exchange)))
  | .subscribeRecord h url timeOut r =>
    if s.readers = [] then some (recordSubscription cfg i t h url timeOut r s) else none
  | .renewEntry h sid timeOut job =>
    if s.readers = [] then some (renewFind t h sid timeOut job s) else none
  | .renewRequest h sid timeOut copy job =>
    some (s.setProc t (.renewRecord h sid timeOut copy (genaSubscribe cfg i.exchange) job))
  | .renewRecord h sid timeOut copy r job =>
    if s.readers = [] then some (renewRecord cfg i t h sid timeOut copy r job s) else none
  | .unsubscribeEntry h sid =>
    if s.readers = [] then
      if s.client = some h then
        match findSid s.subs sid with
        | none => some (s.setProc t (.returned .badSid))
        | some e => some (s.setProc t (.unsubscribeRequest h sid e))
      else some (s.setProc t (.returned .badHandle))
    else none
  | .unsubscribeRequest h sid copy =>
    some ((s.cancelRenew copy).setProc t (.unsubscribeRemove h sid))
  | .unsubscribeRemove h sid =>
    if s.readers = [] then
      if s.client = some h then
        some ({ s with subs := removeSid s.subs sid }.setProc t (.returned .success))
      else some (s.setProc t (.returned .badHandle))
    else none
  | .unregisterLoop h =>
    if s.readers = [] then
      if s.client = some h then
        match s.subs with
        | [] => some ({ s with subs := [] }.setProc t (.returned .success))
        | e :: _ => some ({ s with subs := removeSid s.subs e.sid }.setProc t
            (.unregisterRequest h e))
      else some (s.setProc t (.returned .badHandle))
    else none
  | .unregisterRequest h copy =>
    some ((s.cancelRenew copy).setProc t (.unregisterLoop h))
  | .notifyEntry txn =>
    match validateNotification txn with
    | .reply status => some ((s.respond t status).setProc t .finished)
    | .proceed sid eventKey propset => some (s.setProc t (.notifyLookup sid eventKey propset))
  | .notifyLookup sid eventKey propset =>
    if s.readers = [] then
      match s.client with
      | none => some ((s.respond t 412).setProc t .finished)
      | some h =>
        match findSid s.subs sid with
        | some e => some ((s.respond t 200).setProc t
            (.upcall h (.eventReceived e.sid eventKey propset)))
        | none =>
          if eventKey = 0 then some (s.setProc t (.notifyRetry sid eventKey propset))
          else some ((s.respond t 412).setProc t .finished)
    else none
  | .notifyRetry sid eventKey propset =>
    if s.subscribeOwner = none then
      some ({ s with subscribeOwner := some t }.setProc t (.notifyRetryLookup sid eventKey propset))
    else none
  | .notifyRetryLookup sid eventKey propset =>
    if s.readers = [] then
      let s' := { s with subscribeOwner := none }
      match s.client with
      | none => some ((s'.respond t 412).setProc t .finished)
      | some h =>
        match findSid s.subs sid with
        | none => some ((s'.respond t 412).setProc t .finished)
        | some e => some ((s'.respond t 200).setProc t
            (.upcall h (.eventReceived e.sid eventKey propset)))
    else none
  | .jobEntry ev =>
    if cfg.autoRenewTime = 0 then
      some (s.setProc t (.jobCallback ev.handle
        (.subscriptionExpired { ev.sub with errCode := .success })))
    else some (s.setProc t (.renewEntry ev.handle ev.sub.sid ev.sub.timeOut (some ev)))
  | .jobCallback h event =>
    if s.client = some h then some (s.setProc t (.upcall h event))
    else some (s.setProc t .finished)
  | .upcall h event =>
    some ({ s with upcalls := s.upcalls ++ [(t, h, event)] }.setProc t .finished)
  | _ => none

inductive Call
  | subscribe (h : Nat) (url : String) (timeOut : Int)
  | renew (h : Nat) (sid : String) (timeOut : Int)
  | unsubscribe (h : Nat) (sid : String)
  | unregister (h : Nat)
  | notify (txn : Transaction)

def Call.entry : Call → Proc
  | .subscribe h url timeOut => .subscribeEntry h url timeOut
  | .renew h sid timeOut => .renewEntry h sid timeOut none
  | .unsubscribe h sid => .unsubscribeEntry h sid
  | .unregister h => .unregisterLoop h
  | .notify txn => .notifyEntry txn

def Gena.spawn (s : Gena) (p : Proc) : Gena :=
  { s.setProc s.spawned p with spawned := s.spawned + 1 }

/-- Any interleaving: a new call on a fresh thread, a pending renewal job handed to a fresh
worker when its timer expires, or one step of any thread. -/
inductive Step (cfg : Config) : Gena → Gena → Prop
  | call (s : Gena) (c : Call) : Step cfg s (s.spawn c.entry)
  | fire (s : Gena) (ev : RenewEvent) (h : ev ∈ s.events) :
      Step cfg s ({ s with events := s.events.erase ev }.spawn (.jobEntry ev))
  | run (s s' : Gena) (t : Nat) (i : Input) (h : stepProc cfg i t s = some s') : Step cfg s s'

/-- The library after `UpnpInit` and the client registration, if any: nothing running. -/
def Gena.initial (client : Option Nat) : Gena :=
  ⟨client, [], [], none, [], 0, fun _ ↦ .idle, 0, [], []⟩

def Reachable (cfg : Config) (s : Gena) : Prop :=
  ∃ client, Relation.ReflTransGen (Step cfg) (Gena.initial client) s

inductive Move
  | call (c : Call)
  | fire (eventId : Nat)
  | run (t : Nat) (i : Input)

def move (cfg : Config) (s : Gena) : Move → Option Gena
  | .call c => some (s.spawn c.entry)
  | .fire id =>
    match s.events.find? (fun ev ↦ ev.eventId = id) with
    | some ev => some ({ s with events := s.events.erase ev }.spawn (.jobEntry ev))
    | none => none
  | .run t i => stepProc cfg i t s

def exec (cfg : Config) : List Move → Gena → Option Gena
  | [], s => some s
  | m :: ms, s => (move cfg s m).bind (exec cfg ms)

theorem move_step {cfg : Config} {s s' : Gena} {m : Move} (h : move cfg s m = some s') :
    Step cfg s s' := by
  cases m with
  | call c => cases h; exact .call s c
  | fire id =>
    simp only [move] at h
    split at h
    · rename_i ev hev
      cases h
      exact .fire s ev (List.mem_of_find?_eq_some hev)
    · cases h
  | run t i => exact .run s s' t i h

theorem exec_steps {cfg : Config} {ms : List Move} {s s' : Gena} (h : exec cfg ms s = some s') :
    Relation.ReflTransGen (Step cfg) s s' := by
  induction ms generalizing s with
  | nil => cases h; exact .refl
  | cons m ms ih =>
    obtain ⟨s₁, h₁, h₂⟩ := Option.bind_eq_some.mp h
    exact .head (move_step h₁) (ih h₂)

theorem Reachable.step {cfg : Config} {s s' : Gena} (hs : Reachable cfg s)
    (h : Step cfg s s') : Reachable cfg s' :=
  let ⟨c, hc⟩ := hs
  ⟨c, hc.tail h⟩

theorem Reachable.steps {cfg : Config} {s s' : Gena} (hs : Reachable cfg s)
    (h : Relation.ReflTransGen (Step cfg) s s') : Reachable cfg s' :=
  let ⟨c, hc⟩ := hs
  ⟨c, hc.trans h⟩

theorem Reachable.exec {cfg : Config} {ms : List Move} {s s' : Gena} (hs : Reachable cfg s)
    (h : exec cfg ms s = some s') : Reachable cfg s' :=
  hs.steps (exec_steps h)

@[simp] theorem setProc_threads (s : Gena) (t : Nat) (p : Proc) :
    (s.setProc t p).threads = Function.update s.threads t p := rfl

@[simp] theorem setProc_client (s : Gena) (t : Nat) (p : Proc) :
    (s.setProc t p).client = s.client := rfl

@[simp] theorem setProc_subs (s : Gena) (t : Nat) (p : Proc) :
    (s.setProc t p).subs = s.subs := rfl

@[simp] theorem setProc_readers (s : Gena) (t : Nat) (p : Proc) :
    (s.setProc t p).readers = s.readers := rfl

@[simp] theorem setProc_subscribeOwner (s : Gena) (t : Nat) (p : Proc) :
    (s.setProc t p).subscribeOwner = s.subscribeOwner := rfl

@[simp] theorem setProc_events (s : Gena) (t : Nat) (p : Proc) :
    (s.setProc t p).events = s.events := rfl

@[simp] theorem setProc_nextEventId (s : Gena) (t : Nat) (p : Proc) :
    (s.setProc t p).nextEventId = s.nextEventId := rfl

@[simp] theorem setProc_spawned (s : Gena) (t : Nat) (p : Proc) :
    (s.setProc t p).spawned = s.spawned := rfl

@[simp] theorem setProc_responses (s : Gena) (t : Nat) (p : Proc) :
    (s.setProc t p).responses = s.responses := rfl

@[simp] theorem setProc_upcalls (s : Gena) (t : Nat) (p : Proc) :
    (s.setProc t p).upcalls = s.upcalls := rfl

section Fields

variable (s : Gena) (t u : Nat) (p : Proc) (ev : Option RenewEvent) (copy : ClientSubscription)

@[simp] theorem arm_threads : (s.arm ev).threads = s.threads := by cases ev <;> rfl
@[simp] theorem arm_client : (s.arm ev).client = s.client := by cases ev <;> rfl
@[simp] theorem arm_subs : (s.arm ev).subs = s.subs := by cases ev <;> rfl
@[simp] theorem arm_readers : (s.arm ev).readers = s.readers := by cases ev <;> rfl
@[simp] theorem arm_subscribeOwner : (s.arm ev).subscribeOwner = s.subscribeOwner := by
  cases ev <;> rfl
@[simp] theorem arm_spawned : (s.arm ev).spawned = s.spawned := by cases ev <;> rfl
@[simp] theorem arm_responses : (s.arm ev).responses = s.responses := by cases ev <;> rfl
@[simp] theorem arm_upcalls : (s.arm ev).upcalls = s.upcalls := by cases ev <;> rfl

theorem arm_events : (s.arm ev).events = s.events ++ ev.toList := by cases ev <;> simp [Gena.arm]

@[simp] theorem cancelRenew_threads : (s.cancelRenew copy).threads = s.threads := by
  unfold Gena.cancelRenew; split <;> rfl
@[simp] theorem cancelRenew_client : (s.cancelRenew copy).client = s.client := by
  unfold Gena.cancelRenew; split <;> rfl
@[simp] theorem cancelRenew_subs : (s.cancelRenew copy).subs = s.subs := by
  unfold Gena.cancelRenew; split <;> rfl
@[simp] theorem cancelRenew_readers : (s.cancelRenew copy).readers = s.readers := by
  unfold Gena.cancelRenew; split <;> rfl
@[simp] theorem cancelRenew_subscribeOwner :
    (s.cancelRenew copy).subscribeOwner = s.subscribeOwner := by
  unfold Gena.cancelRenew; split <;> rfl
@[simp] theorem cancelRenew_spawned : (s.cancelRenew copy).spawned = s.spawned := by
  unfold Gena.cancelRenew; split <;> rfl
@[simp] theorem cancelRenew_responses : (s.cancelRenew copy).responses = s.responses := by
  unfold Gena.cancelRenew; split <;> rfl
@[simp] theorem cancelRenew_upcalls : (s.cancelRenew copy).upcalls = s.upcalls := by
  unfold Gena.cancelRenew; split <;> rfl
@[simp] theorem cancelRenew_nextEventId : (s.cancelRenew copy).nextEventId = s.nextEventId := by
  unfold Gena.cancelRenew; split <;> rfl

theorem cancelRenew_events_congr {s' : Gena} (h : s'.events = s.events) :
    (s'.cancelRenew copy).events = (s.cancelRenew copy).events := by
  unfold Gena.cancelRenew; split <;> simp [h]

@[simp] theorem cancelRenew_events_subset : (s.cancelRenew copy).events ⊆ s.events := by
  unfold Gena.cancelRenew
  split
  · exact fun e he ↦ (mem_removeEvent.mp he).1
  · exact List.Subset.refl _

@[simp] theorem respond_threads : (s.respond t u).threads = s.threads := rfl
@[simp] theorem respond_client : (s.respond t u).client = s.client := rfl
@[simp] theorem respond_subs : (s.respond t u).subs = s.subs := rfl
@[simp] theorem respond_readers : (s.respond t u).readers = s.readers := rfl
@[simp] theorem respond_subscribeOwner : (s.respond t u).subscribeOwner = s.subscribeOwner := rfl
@[simp] theorem respond_events : (s.respond t u).events = s.events := rfl
@[simp] theorem respond_spawned : (s.respond t u).spawned = s.spawned := rfl
@[simp] theorem respond_responses : (s.respond t u).responses = s.responses ++ [(t, u)] := rfl
@[simp] theorem respond_upcalls : (s.respond t u).upcalls = s.upcalls := rfl

@[simp] theorem renewRecord_upcalls (cfg : Config) (i : Input) (h : Nat) (sid : String)
    (timeOut : Int) (r : SubscribeResult) (job : Option RenewEvent) :
    (renewRecord cfg i t h sid timeOut copy r job s).upcalls = s.upcalls := by
  unfold renewRecord
  dsimp only
  split
  · split
    · simp
    · split <;> simp
  · simp

end Fields

theorem mem_arm_events {s : Gena} {ev : Option RenewEvent} {v : RenewEvent} :
    v ∈ (s.arm ev).events ↔ v ∈ s.events ∨ ev = some v := by
  cases ev <;> simp [Gena.arm, eq_comm]

/-- A step of thread `t` rewrites `t`'s program point only, and leaves the thread count
and the registered client alone. -/
def Framed (t : Nat) (s s' : Gena) : Prop :=
  s'.threads = Function.update s.threads t (s'.threads t) ∧ s'.spawned = s.spawned ∧
    s'.client = s.client

theorem framed_setProc {t : Nat} {s x : Gena} (p : Proc) (hx : x.threads = s.threads)
    (hs : x.spawned = s.spawned) (hc : x.client = s.client) : Framed t s (x.setProc t p) := by
  simp [Framed, hx, hs, hc]

theorem recordSubscription_framed (cfg : Config) (i : Input) (t h : Nat) (url : String)
    (timeOut : Int) (r : SubscribeResult) (s : Gena) :
    Framed t s (recordSubscription cfg i t h url timeOut r s) := by
  unfold recordSubscription
  split
  · exact framed_setProc _ rfl rfl rfl
  · split <;> exact framed_setProc _ (by simp) (by simp) (by simp)

theorem renewFind_framed (t h : Nat) (sid : String) (timeOut : Int) (job : Option RenewEvent)
    (s : Gena) : Framed t s (renewFind t h sid timeOut job s) := by
  unfold renewFind
  split
  · split <;> exact framed_setProc _ rfl rfl rfl
  · exact framed_setProc _ rfl rfl rfl

theorem renewRecord_framed (cfg : Config) (i : Input) (t h : Nat) (sid : String)
    (timeOut : Int) (copy : ClientSubscription) (r : SubscribeResult) (job : Option RenewEvent)
    (s : Gena) : Framed t s (renewRecord cfg i t h sid timeOut copy r job s) := by
  unfold renewRecord
  dsimp only
  split
  · split
    · exact framed_setProc _ (by simp) (by simp) (by simp)
    · split <;> exact framed_setProc _ (by simp) (by simp) (by simp)
  · exact framed_setProc _ rfl rfl rfl

theorem stepProc_framed {cfg : Config} {i : Input} {t : Nat} {s s' : Gena}
    (h : stepProc cfg i t s = some s') : Framed t s s' := by
  unfold stepProc at h
  cases hp : s.threads t <;> simp only [hp, reduceCtorEq] at h
  case subscribeRecord =>
    split_ifs at h
    cases h
    exact recordSubscription_framed ..
  case renewEntry =>
    split_ifs at h
    cases h
    exact renewFind_framed ..
  case renewRecord =>
    split_ifs at h
    cases h
    exact renewRecord_framed ..
  all_goals
    repeat' split at h
    all_goals cases h
    all_goals exact framed_setProc _ (by simp) (by simp) (by simp)

theorem stepProc_active {cfg : Config} {i : Input} {t : Nat} {s s' : Gena}
    (h : stepProc cfg i t s = some s') : s.threads t ≠ .idle := by
  intro hp
  simp [stepProc, hp] at h

theorem Framed.other {t u : Nat} {s s' : Gena} (h : Framed t s s') (hu : u ≠ t) :
    s'.threads u = s.threads u := by
  rw [h.1, Function.update_noteq hu]

def Tagged (t : Nat) (s s' : Gena) : Prop :=
  (∃ r, s'.responses = s.responses ++ r ∧ ∀ e ∈ r, e.1 = t) ∧
    ∃ u, s'.upcalls = s.upcalls ++ u ∧ ∀ e ∈ u, e.1 = t

theorem tagged_of_eq {t : Nat} {s s' : Gena} (hr : s'.responses = s.responses)
    (hu : s'.upcalls = s.upcalls) : Tagged t s s' :=
  ⟨⟨[], by simp [hr], by simp⟩, [], by simp [hu], by simp⟩

theorem recordSubscription_tagged (cfg : Config) (i : Input) (t h : Nat) (url : String)
    (timeOut : Int) (r : SubscribeResult) (s : Gena) :
    Tagged t s (recordSubscription cfg i t h url timeOut r s) := by
  unfold recordSubscription
  split
  · exact tagged_of_eq rfl rfl
  · split <;> exact tagged_of_eq (by simp) (by simp)

theorem renewFind_tagged (t h : Nat) (sid : String) (timeOut : Int) (job : Option RenewEvent)
    (s : Gena) : Tagged t s (renewFind t h sid timeOut job s) := by
  unfold renewFind
  split
  · split <;> exact tagged_of_eq rfl rfl
  · exact tagged_of_eq rfl rfl

theorem renewRecord_tagged (cfg : Config) (i : Input) (t h : Nat) (sid : String)
    (timeOut : Int) (copy : ClientSubscription) (r : SubscribeResult) (job : Option RenewEvent)
    (s : Gena) : Tagged t s (renewRecord cfg i t h sid timeOut copy r job s) := by
  unfold renewRecord
  dsimp only
  split
  · split
    · exact tagged_of_eq (by simp) (by simp)
    · split <;> exact tagged_of_eq (by simp) (by simp)
  · exact tagged_of_eq rfl rfl

theorem stepProc_tagged {cfg : Config} {i : Input} {t : Nat} {s s' : Gena}
    (h : stepProc cfg i t s = some s') : Tagged t s s' := by
  unfold stepProc at h
  cases hp : s.threads t <;> simp only [hp, reduceCtorEq] at h
  case subscribeRecord =>
    split_ifs at h
    cases h
    exact recordSubscription_tagged ..
  case renewEntry =>
    split_ifs at h
    cases h
    exact renewFind_tagged ..
  case renewRecord =>
    split_ifs at h
    cases h
    exact renewRecord_tagged ..
  all_goals
    repeat' split at h
    all_goals cases h
    all_goals first
      | (apply tagged_of_eq <;> simp <;> done)
      | exact ⟨⟨_, rfl, by simp⟩, [], by simp, by simp⟩
      | exact ⟨⟨[], by simp, by simp⟩, _, rfl, by simp⟩

/-- An execution of the client: each state follows from the one before by a step,
or repeats it once the run has stopped. -/
structure Run (cfg : Config) where
  state : Nat → Gena
  start : Reachable cfg (state 0)
  step : ∀ k, Step cfg (state k) (state (k + 1)) ∨ state (k + 1) = state k

theorem Run.reachable {cfg : Config} (r : Run cfg) (k : Nat) : Reachable cfg (r.state k) := by
  induction k with
  | zero => exact r.start
  | succ k ih =>
    rcases r.step k with h | h
    · exact ih.step h
    · exact h ▸ ih

theorem Run.steps {cfg : Config} (r : Run cfg) {j k : Nat} (hjk : j ≤ k) :
    Relation.ReflTransGen (Step cfg) (r.state j) (r.state k) := by
  induction k, hjk using Nat.le_induction with
  | base => exact .refl
  | succ k _ ih =>
    rcases r.step k with h | h
    · exact ih.tail h
    · exact h ▸ ih

theorem exec_append (cfg : Config) (ms ms' : List Move) (s : Gena) :
    exec cfg (ms ++ ms') s = (exec cfg ms s).bind (exec cfg ms') := by
  induction ms generalizing s with
  | nil => rfl
  | cons m ms ih =>
    simp only [List.cons_append, exec]
    cases move cfg s m with
    | none => rfl
    | some v => exact ih v

def Run.ofExec (cfg : Config) (ms : List Move) (s : Gena) (hs : Reachable cfg s)
    (hx : (exec cfg ms s).isSome) : Run cfg where
  state k := (exec cfg (ms.take k) s).getD s
  start := by simpa [exec] using hs
  step k := by
    dsimp only
    by_cases hk : k < ms.length
    · have hsplit : ms.take (k + 1) = ms.take k ++ [ms[k]] :=
        (List.take_concat_get' ms k hk).symm
      have hx' : (exec cfg (ms.take (k + 1)) s).isSome := by
        rw [← List.take_append_drop (k + 1) ms, exec_append] at hx
        cases h : exec cfg (ms.take (k + 1)) s with
        | none => rw [h] at hx; cases hx
        | some _ => rfl
      rw [hsplit, exec_append] at hx' ⊢
      cases h₁ : exec cfg (ms.take k) s with
      | none => simp [h₁] at hx'
      | some s₁ =>
        cases h₂ : move cfg s₁ ms[k] with
        | none => simp [h₁, exec, h₂] at hx'
        | some s₂ => exact .inl (by simpa [exec, h₂] using move_step h₂)
    · right
      rw [List.take_of_length_le (by omega), List.take_of_length_le (by omega)]

theorem Run.ofExec_state_of_le {cfg : Config} {ms : List Move} {s : Gena} {hs : Reachable cfg s}
    {hx : (exec cfg ms s).isSome} {k : Nat} (hk : ms.length ≤ k) :
    (Run.ofExec cfg ms s hs hx).state k = (exec cfg ms s).getD s := by
  simp [Run.ofExec, List.take_of_length_le hk]

end Npupnp.Gena.Machine
