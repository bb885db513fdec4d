import GameRelay.Receive
/-!
# Deliver — the delivery tasks (`push.rs`)

A pass of `deliver` works through the jobs that were due when it began, one query of the state worker after another;
commands run between its queries.  `PushTask` is where a pass stands between two queries, with its local variables, and
`PushTask.step` goes on to the next one.  The provider's answers come from outside.  `deliver_legacy` takes the queued
pushes of `notifyPlayers` and forgets a device whose token the provider declares invalid.
-/
namespace Relay

open Value (ofNat)

/-- What a send comes to: success, an invalid token, or a failure. -/
inductive Answer where
  | sent
  | invalid
  | failed
  deriving DecidableEq

/-- The account of a target as the pass found it: is it connected, its room, and the devices still to go. -/
structure Target where
  id : String
  online : Bool
  current : Option String
  devices : List (String × Value)

/-- A due job on its way, as it was when the pass began, and the targets still to go. -/
structure Delivery where
  room : String
  job : Value
  failed : Bool
  targets : List Value

/-- Where the delivery task stands. -/
inductive PushTask where
  | idle
  | due (jobs : List (String × Value))
  | job (d : Delivery) (jobs : List (String × Value))
  | target (d : Delivery) (t : Target) (jobs : List (String × Value))
  /-- The provider was asked to send to this device. -/
  | asked (d : Delivery) (t : Target) (device : String × Value) (jobs : List (String × Value))
  /-- The device was answered, or is in the foreground. -/
  | answered (d : Delivery) (t : Target) (device : String × Value) (invalid : Bool) (jobs : List (String × Value))

/-- The entry of a device in a job's `done` list. -/
def doneKey (id device : String) : String := id ++ ":" ++ device

/-- The job's `done` list has the device. -/
def isDone (job : Value) (id device : String) : Bool :=
  (job.idx "done").asArray.any (fun a => decide (Value.str (doneKey id device) ∈ a))

/-- `at` and `retryAt` have passed. -/
def isDue (job : Value) (now : Nat) : Bool :=
  decide (((job.idx "at").asU64).getD 0 ≤ now) && decide (((job.idx "retryAt").asU64).getD 0 ≤ now)

/-- The job gains an entry in its `done` list. -/
def receipted (key : String) (job : Value) : Value :=
  match (job.idx "done").asArray with
  | some a => job.set "done" (.arr (a ++ [.str key]))
  | none => job.set "done" (job.idx "done")

/-- The first job of the same event and time, changed. -/
def modifyFirst (job : Value) (f : Value → Value) : List Value → List Value
  | [] => []
  | j :: js => if Store.sameNotice j job then f j :: js else j :: modifyFirst job f js

/-- The list without the first job of the same event and time. -/
def removeFirst (job : Value) : List Value → List Value
  | [] => []
  | j :: js => if Store.sameNotice j job then js else j :: removeFirst job js

/-- The job list once all targets of the job were gone through. -/
def retiredJobs (job : Value) (failed : Bool) (now : Nat) (jobs : List Value) : List Value :=
  if !failed && decide (job.idx "scheduled" ≠ .bool true) then removeFirst job jobs
  else modifyFirst job (fun j => j.set "retryAt" (if failed then ofNat (now + 30000) else Store.delivered)) jobs

namespace Server

/-- The jobs that are due, with their rooms. -/
def dueJobs (s : Server) (now : Nat) : List (String × Value) :=
  s.store.jobs.entries.flatMap (fun e => (e.2.filter (fun j => isDue j now)).map (fun j => (e.1, j)))

variable [Extern]

/-- The account in memory, else in the store. -/
def knownAccount (env : Env) (s : Server) (id : String) : Option Player :=
  match s.players.get id with
  | some p => some p
  | none =>
    match s.store.account id env.now with
    | .ok p => p
    | .error _ => none

def lookup (env : Env) (s : Server) (id : String) : Option Target :=
  (s.knownAccount env id).map (fun p => ⟨id, p.connection.isSome, p.room, p.devices.entries⟩)

omit [Extern] in
/-- Is a job of the same event and time still queued? -/
def stillCurrent (s : Server) (room : String) (job : Value) : Bool :=
  (s.store.jobs.get room).any (fun a => a.any (fun j => Store.sameNotice j job))

/-- A device whose token is invalid is removed, from the store and from memory. -/
def forgetDevice (env : Env) (s : Server) (id device : String) (token : Value) : Server :=
  match s.knownAccount env id with
  | none => s
  | some p =>
    if (p.devices.get device).any (fun d => decide (d.idx "token" = token)) then
      let p := { p with devices := p.devices.shiftRemove device }
      let s := { s with store := (s.store.saveAccount env.io p).1 }
      if s.players.contains id then s.setPlayer id p else s
    else s

omit [Extern] in
def receipt (s : Server) (room : String) (job : Value) (key : String) : Server :=
  { s with store := { s.store with jobs := s.store.jobs.modify room (modifyFirst job (receipted key)) } }

/-- Take the job off the list, or set when it is due next. -/
def retire (env : Env) (s : Server) (d : Delivery) : Server :=
  match s.store.jobs.get d.room with
  | none => s
  | some jobs =>
    if jobs.any (fun j => Store.sameNotice j d.job) then
      let jobs := retiredJobs d.job d.failed env.now jobs
      if s.store.enabled then { s with store := (s.store.setJobs env.io d.room jobs).1 }
      else if jobs.isEmpty then { s with store := { s.store with jobs := s.store.jobs.shiftRemove d.room } }
      else { s with store := { s.store with jobs := s.store.jobs.insert d.room jobs } }
    else s

/-- Does the device show the room already? -/
def isForeground (d : Delivery) (t : Target) (device : Value) : Bool :=
  t.online && decide (device.idx "foreground" = .bool true) && decide (t.current = some d.room)

end Server

variable [Extern]

/-- The task up to the end of its next query, or to the provider's answer. -/
def PushTask.step (env : Env) (answer : Answer) (s : Server) : PushTask → Server × PushTask
  | .idle => (s, .due (s.dueJobs env.now))
  | .due [] => (s, .idle)
  | .due ((room, j) :: jobs) => (s, .job ⟨room, j, false, ((j.idx "to").asArray).getD []⟩ jobs)
  | .job d jobs =>
    match d.targets with
    | [] => (s.retire env d, .due jobs)
    | v :: vs =>
      match v.asStr.bind (s.lookup env) with
      | none => (s, .job { d with targets := vs } jobs)
      | some t => (s, .target { d with targets := vs } t jobs)
  | .target d t jobs =>
    match t.devices with
    | [] => (s, .job d jobs)
    | device :: devices =>
      if isDone d.job t.id device.1 then (s, .target d { t with devices := devices } jobs)
      else if s.stillCurrent d.room d.job = false then (s, .job d jobs)
      else if Server.isForeground d t device.2 then (s, .answered d { t with devices := devices } device false jobs)
      else (s, .asked d { t with devices := devices } device jobs)
  | .asked d t device jobs =>
    match answer with
    | .failed => (s, .target { d with failed := true } t jobs)
    | .sent => (s, .answered d t device false jobs)
    | .invalid => (s, .answered d t device true jobs)
  | .answered d t device invalid jobs =>
    let s := if invalid then s.forgetDevice env t.id device.1 (device.2.idx "token") else s
    (s.receipt d.room d.job (doneKey t.id device.1), .target d t jobs)

/-- The token the provider is asked to send to, and the notification. -/
def PushTask.sends : PushTask → Option (String × Value)
  | .asked d _ device _ =>
    let text := localized d.job device.2
    some (((device.2.idx "token").asStr).getD "", .obj [("title", text.idx "title"), ("body", text.idx "body"),
      ("roomId", .str d.room), ("eventId", d.job.idx "eventId")])
  | _ => none

/-- The provider answered a push of `notifyPlayers`. -/
def Server.legacyAnswered (s : Server) (job : LegacyPush) (answer : Answer) : Server :=
  let s := { s with pushesInFlight := s.pushesInFlight - 1 }
  match answer, s.players.get job.player with
  | .invalid, some p =>
    if (p.devices.get job.device).any (fun d => decide (d.idx "token" = .str job.token)) then
      s.setPlayer job.player { p with devices := p.devices.shiftRemove job.device }
    else s
  | _, _ => s

/-! The store a new process opens. -/

/-- A queued job as `Store::new` takes it from its file. -/
def Store.loadable (j : Value) : Bool :=
  Protocol.notice j && (j.idx "done").asArray.any (fun a => a.all (fun v => v.asStr.isSome)) &&
    Protocol.integer (j.idx "retryAt") && (j.idx "scheduled").isBoolean

/-- The job lists of the notification files. -/
def Store.loadJobs (files : IndexMap String (List Value)) : IndexMap String (List Value) :=
  files.retain (fun id jobs => isUuid id && jobs.all Store.loadable)

/-- `Store::new` over the files of the directory, in which the unpruned job lists are those of the files. -/
def Store.reopen (io : Nat → Bool) (st : Store) (now : Nat) : Pruned :=
  let st := { st with jobs := Store.loadJobs (if st.enabled then st.notifications else .empty) }
  st.prune io [] now

end Relay
