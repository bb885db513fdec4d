import Mathlib
import GameRelay.Handle
/-!
# Receive — authentication, incoming frames and maintenance (`server.rs`)

`connected`, `auth`, `receive`, `dispatch` and `sweep`, and the commands of the state worker.
-/
namespace Relay

open Value (ofNat)

/-- Methods that a delayed frame may execute in whatever room its sender is by then. -/
def unscoped : List String :=
  ["getRooms", "getSavedRooms", "getPlayers", "changeName", "createRoom", "enterRoom", "leaveRoom", "setPushDevice"]

namespace Server

variable [Extern]

def connected (env : Env) (s : Server) (cid : Nat) : Server :=
  s.setConnection cid {
    udp := none, udpIncomingRate := ⟨0, 0⟩, udpOutgoingRate := ⟨0, 0⟩, out := [], receiver := true, queued := 0
    player := none, created := env.now, activity := env.now, ping := none, lastPing := env.now, rateAt := env.now
    messages := 0, delayed := 0, pending := 0, closing := false, abort := false }

def purgeDelayed (s : Server) (cid : Nat) : Server :=
  { s with delayed := s.delayed.filter (fun d => decide (d.cid ≠ cid)) }

def authenticationFailed (s : Server) (cid : Nat) : Server :=
  (s.sendC cid (.obj [("method", .str "wrongPassword")])).close cid 1008 "Authentication failed"

/-- The account a reconnect names: in memory, else in the store. -/
def retainedAccount (env : Env) (s : Server) (key : String) : Except Unit (Option Player) :=
  match s.players.get key with
  | some p => .ok (some p)
  | none => if isUuid key then s.store.account key env.now else .ok none

def onlineCount (s : Server) : Nat := (s.players.values.filter (fun p => p.connection.isSome)).length

def onConnected (s : Server) : Value :=
  let c := s.config
  .obj [("method", .str "onConnected"), ("data", .obj ([("online", ofNat s.onlineCount)] ++
    (if s.store.enabled then [("persistentSessions", .bool true)] else []) ++
    (if s.push then [("pushNotifications", .bool true)] else []) ++
    (if c.udpEnabled then [("udpRelay", .obj [("version", ofNat 1), ("port", ofNat c.udpPort),
      ("maxDatagramBytes", ofNat c.udpMaxDatagramBytes), ("maxPayloadBytes", ofNat (c.udpMaxDatagramBytes - 69)),
      ("endpointTtlMs", ofNat c.udpEndpointTtlMs), ("challengeTtlMs", ofNat c.udpChallengeTtlMs),
      ("incomingPacketsPerSecond", ofNat c.udpIncomingPacketsPerSecond),
      ("outgoingPacketsPerSecond", ofNat c.udpOutgoingPacketsPerSecond)])] else [])))]

/-- Make the connection the account's current one and greet it. -/
def bind (env : Env) (s : Server) (cid : Nat) (id : String) (created : Bool) : Out Server :=
  Out.unwrap (s.players.get id) fun p =>
  let p := { p with connection := some cid, offline := none, rtt := none }
  let s := s.setPlayer id p
  Out.unwrap (s.connections.get cid) fun c =>
  let s := s.setConnection cid { c with player := some id }
  match s.store.saveAccount env.io p with
  | (st, false) => .err { s with store := st }
  | (st, true) =>
    let s := { s with store := st }
    let s := if created then s.sendC cid (.obj [("method", .str "accountCreated"), ("data", .obj [
      ("name", .str p.name), ("playerId", .str id), ("password", .str p.password)])]) else s
    let s := s.sendC cid s.onConnected
    match p.room.bind s.rooms.get with
    | some r => .ok (s.sendC cid (.obj [("method", .str "onRoomEnter"), ("data", s.dto r)]))
    | none => .ok s

/-- The old socket of a returning account is closed and its queued frames dropped. -/
def replaceSession (s : Server) (p : Player) : Server :=
  match p.connection with
  | some old => (s.close old 1008 "Session replaced").purgeDelayed old
  | none => s

def renamed (p : Player) (d : Value) : Player :=
  match (d.idx "name").asStr with
  | some n => { p with name := n }
  | none => p

/-- An account returns: a stored one comes back into memory, and one still inside a fixed game leaves it first. -/
def reconnect (env : Env) (s : Server) (cid : Nat) (p : Player) (d : Value) : Out Server :=
  let id := p.id
  let s := if s.players.contains id then s else s.setPlayer id p
  let inFixed := (p.room.bind s.rooms.get).any (fun r => r.started && r.fixed)
  Out.andThen (if inFixed then s.leave env id true else .ok s) fun s =>
  Out.unwrap (if inFixed then s.players.get id else some p) fun p =>
  bind env ((s.replaceSession p).setPlayer id (renamed p d)) cid id false

def auth (env : Env) (s : Server) (cid : Nat) (d : Value) : Out Server :=
  let s := s.expire env.now
  if (d.get "playerId").isNone && (d.get "password").isNone then
    if s.config.maxAccounts ≤ s.players.size then
      .ok ((s.error cid "limit_exceeded").close cid 1008 "Account limit")
    else
      let secret := env.secret s.draws
      s.drawId env fun s id =>
      bind env (s.setPlayer id (Player.new id secret (((d.idx "name").asStr).getD "Player") env.now)) cid id true
  else
    match s.retainedAccount env (((d.idx "playerId").asStr).getD "") with
    | .error _ => .err s
    | .ok none => .ok (s.authenticationFailed cid)
    | .ok (some p) =>
      if p.password ≠ ((d.idx "password").asStr).getD "" then .ok (s.authenticationFailed cid)
      else s.reconnect env cid p d

/-- Report a returned `Err` to the connection. -/
def reportErr (cid : Nat) : Out Server → Out Server
  | .ok s => .ok s
  | .err s => .ok (s.error cid "storage_error")
  | .halt h => .halt h

def dispatch (env : Env) (s : Server) (cid : Nat) (frame : Frame) (parsed : Option Value) : Out Server :=
  match (s.connections.get cid).bind (·.player) with
  | none => .ok s
  | some p =>
    match frame with
    | .text t =>
      Out.unwrap (parsed.or (Protocol.parse t)) fun v => reportErr cid (s.handle env cid p v)
    | .binary b => reportErr cid (s.binary env p b)
    | .ping _ | .pong _ => .ok s

/-- Count the frame against the connection's rate. -/
def countFrame (c : Connection) (now : Nat) : Connection :=
  let fresh := decide (1000 ≤ now - c.rateAt)
  { c with rateAt := if fresh then now else c.rateAt, messages := (if fresh then 0 else c.messages) + 1,
           activity := now }

/-- Execute a frame now, or queue it when traffic is delayed. -/
def submit (env : Env) (s : Server) (cid : Nat) (p : String) (frame : Frame) (roomScoped immediate : Bool)
    (parsed : Option Value) : Out Server :=
  if decide (0 < s.config.sendDelayMs) && !immediate then
    Out.unwrap (s.connections.get cid) fun c =>
    if s.config.maxBufferedBytes < c.delayed + frame.len ∨ s.config.maxMessagesPerSecond ≤ c.pending then
      .ok (s.close cid 1008 "Delay limit")
    else
      Out.unwrap (s.players.get p) fun player =>
      .ok { s.setConnection cid { c with delayed := c.delayed + frame.len, pending := c.pending + 1 } with
            delayed := s.delayed ++ [{ time := env.now + s.config.sendDelayMs, cid := cid, version := player.version,
                                       roomScoped := roomScoped, frame := frame, size := frame.len }] }
  else s.dispatch env cid frame parsed

/-- A text frame that passed the rate and size checks. -/
def receiveText (env : Env) (s : Server) (cid : Nat) (player : Option String) (t : String) : Out Server :=
  match Protocol.parse t with
  | none => .ok (s.error cid "invalid_message")
  | some v =>
    if Protocol.validate v s.config.maxRoomPlayers s.config.maxAccounts = false then
      .ok (s.error cid "invalid_message")
    else if s.config.maxPayloadBytes < Protocol.size v then .ok (s.error cid "payload_too_large")
    else
      Out.unwrap (v.idx "method").asStr fun m =>
      match player with
      | none =>
        if m = "authenticate" then reportErr cid (s.auth env cid (v.idx "data"))
        else .ok (s.error cid "invalid_message")
      | some p =>
        if m = "authenticate" then .ok (s.error cid "invalid_message")
        else s.submit env cid p (.text t) (!decide (m ∈ unscoped)) (decide (m = "Pong")) (some v)

/-- May frames of this connection still act: it is not bound, or it is its account's current one. -/
def isCurrent (s : Server) (cid : Nat) (c : Connection) : Bool :=
  c.player.all (fun id => decide (s.connectionOf id = some cid))

def receive (env : Env) (s : Server) (cid : Nat) (frame : Frame) : Out Server :=
  match s.connections.get cid with
  | none => .ok s
  | some c =>
    if c.closing || !s.isCurrent cid c then .ok s
    else
      let c := countFrame c env.now
      let s := s.setConnection cid c
      if s.config.maxMessagesPerSecond < c.messages then .ok (s.close cid 1008 "Message rate limit")
      else match frame with
        | .ping b => .ok (s.raw cid (.pong b))
        | .pong _ => .ok s
        | .text t =>
          if s.config.maxPayloadBytes < t.utf8ByteSize then .ok (s.close cid 1009 "Message too large")
          else s.receiveText env cid c.player t
        | .binary b =>
          if s.config.maxPayloadBytes < b.length then .ok (s.close cid 1009 "Message too large")
          else match c.player with
            | none => .ok (s.error cid "invalid_message")
            | some p =>
              if s.config.fits b.length = false then .ok (s.error cid "payload_too_large")
              else s.submit env cid p (.binary b) true false none

/-- May a delayed frame still act? -/
def mayRun (s : Server) (d : Delayed) (c : Connection) : Bool :=
  (c.player.bind s.players.get).any (fun p =>
    !c.closing && decide (p.connection = some d.cid) && (!d.roomScoped || decide (p.version = d.version)))

/-- The queue entry leaves its connection's account of delayed frames. -/
def unqueue (d : Delayed) (c : Connection) : Connection := { c with delayed := c.delayed - d.size, pending := c.pending - 1 }

/-- Run the delayed frames that are due, in order; the others stay queued. -/
def runDelayed (env : Env) : List Delayed → Server → Out Server
  | [], s => .ok s
  | d :: ds, s =>
    if env.now < d.time then runDelayed env ds { s with delayed := s.delayed ++ [d] }
    else match s.connections.get d.cid with
      | none => runDelayed env ds s
      | some c =>
        let s := s.setConnection d.cid (unqueue d c)
        if s.mayRun d c then Out.andThen (s.dispatch env d.cid d.frame none) (runDelayed env ds)
        else runDelayed env ds s

/-- An upload idle for more than 30 seconds is dropped. -/
def timeoutUpload (now : Nat) (r : Room) : Room :=
  if r.upload.any (fun u => decide (30000 < now - u.time)) then { r with upload := none } else r

def keepEmpty (env : Env) : List String → Server → Out Server
  | [], s => .ok s
  | id :: ids, s => Out.unwrap (s.rooms.get id) fun r => keepEmpty env ids ((s.removeRoom id).keep env r)

/-- Drop idle uploads and put empty persistent rooms to sleep. -/
def sweepRooms (env : Env) (s : Server) : Out Server :=
  let s := { s with rooms := s.rooms.mapVals (fun _ r => timeoutUpload env.now r) }
  keepEmpty env ((s.rooms.values.filter (fun r => r.persistent && r.active.isEmpty)).map (·.id)) s

/-- One connection's deadlines and heartbeat; the flag says whether a heartbeat fell due. -/
def sweepConnection (env : Env) (s : Server) (cid : Nat) (c : Connection) : Server × Bool :=
  let idle := s.config.idleTimeoutMs
  if c.player.isNone then
    if s.config.authTimeoutMs ≤ env.now - c.created then (s.close cid 1008 "Authentication timeout", false)
    else (s, false)
  else if decide (idle ≤ env.now - c.activity) || c.ping.any (fun t => decide (idle ≤ env.now - t)) then
    (s.close cid 1008 "Idle timeout", false)
  else if s.config.heartbeatIntervalMs ≤ env.now - c.lastPing then
    if c.ping.isNone then
      ((s.setConnection cid { c with lastPing := env.now, ping := some env.now }).sendC cid
        (.obj [("method", .str "Ping"), ("data", ofNat env.now)]), true)
    else (s.setConnection cid { c with lastPing := env.now }, true)
  else (s, false)

def sweepConnections (env : Env) : List Nat → Server → Bool → Out (Server × Bool)
  | [], s, heartbeat => .ok (s, heartbeat)
  | cid :: cids, s, heartbeat =>
    Out.unwrap (s.connections.get cid) fun c =>
    sweepConnections env cids (s.sweepConnection env cid c).1 (heartbeat || (s.sweepConnection env cid c).2)

/-- The round-trip times of a room's members, as far as known. -/
def roomRtt (s : Server) (r : Room) : Value :=
  .obj [("method", .str "RoomRTT"), ("data", .obj (r.active.items.filterMap (fun id =>
    ((s.players.get id).bind (·.rtt)).map (fun rtt => (id, ofNat rtt)))))]

def sweep (env : Env) (s : Server) : Out Server :=
  Out.andThen (runDelayed env s.delayed { s with delayed := [] }) fun s =>
  Out.andThen (s.sweepRooms env) fun s =>
  match sweepConnections env s.connections.keys s false with
  | .ok (s, heartbeat) =>
    let s := if heartbeat then s.rooms.values.foldl (fun s r => s.broadcast r (s.roomRtt r) none none) s else s
    .ok (s.expire env.now)
  | .err (s, _) => .err s
  | .halt h => .halt h

end Server

/-- The commands that reach the state worker from sockets and the maintenance timer. -/
inductive Command where
  | connected (cid : Nat)
  | receive (cid : Nat) (frame : Frame)
  | disconnect (cid : Nat)
  | sweep

/-- The state a command leaves; `none` when it is not a possible command or stops the server.  A connection's number is
not in use when it connects. -/
def Server.step [Extern] (env : Env) (s : Server) : Command → Option Server
  | .connected cid => if s.connections.contains cid then none else some (s.connected env cid)
  | .receive cid frame => (s.receive env cid frame).state
  | .disconnect cid => (s.disconnect env cid).state
  | .sweep => (s.sweep env).state

/-- A server that just started, over the files an earlier one left. -/
def Server.boot (config : Config) (store : Store) (push : Bool) : Server where
  config := config
  players := IndexMap.empty
  rooms := IndexMap.empty
  store := store
  delayed := []
  push := push
  pushesInFlight := 0
  legacyPushes := []
  draws := 0
  drawn := []
  history := []
  connections := IndexMap.empty
  offered := []

/-- A run of commands that all satisfy `G`, each with what its step reads from outside. -/
def Server.Run [Extern] (G : Env → Server → Command → Prop) : Server → Server → Prop :=
  Relation.ReflTransGen (fun s t => ∃ env c, G env s c ∧ s.step env c = some t)

end Relay
