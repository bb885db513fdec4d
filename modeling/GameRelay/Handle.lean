import GameRelay.Session
/-!
# Handle — the methods of an authenticated connection (`server.rs`)

`room_message` and `handle`, one definition a method.  The members of a family that differ in their message only are
instances of one definition: the relays (`relayMethod`) and the owner's guard (`ownerOnly`).
-/
namespace Relay

open Value (ofNat)

/-- The text a device is shown: its language's translation, or the notice itself. -/
def localized (notice device : Value) : Value :=
  let t := (notice.idx "translations").idx (((device.idx "language").asStr).getD "en")
  if t.isObject then t else notice

/-- `getPlayers` order: room entry, then ID. -/
def playerLe (a b : Player) : Bool :=
  let x := a.entered.getD 18446744073709551615
  let y := b.entered.getD 18446744073709551615
  decide (x < y) || (decide (x = y) && decide (a.id ≤ b.id))

/-- The settings `updateRoom` checks before it stores them. -/
def settings (r : Room) (max : Nat) (d : Value) : Room :=
  { r with
    max := max
    name := match (d.idx "name").asStr with
      | some s => s
      | none => r.name
    password := match d.get "password" with
      | some pass => if pass.asStr.any (fun s => !s.isEmpty) then pass else .null
      | none => r.password }

/-- Open or close the room to newcomers when `joinClosed` says so. -/
def joinClosed (r : Room) (d : Value) : Room :=
  match (d.idx "joinClosed").asBool with
  | some b => { r with closed := b }
  | none => r

/-- The room `startGame` starts, with the seats and the persistence its `data` asks for. -/
def startedRoom (enabled : Bool) (r : Room) (d : Value) (now : Nat) : Room :=
  let fixed := decide (d.idx "fixedRoster" = .bool true)
  let migration := fixed && decide (d.idx "hostMigration" = .bool true)
  let persistent := enabled && migration && decide (d.idx "persistent" = .bool true)
  { r with
    fixed := fixed
    migration := migration
    persistent := persistent
    start := if persistent then d else .null
    updated := now
    players := if fixed then r.active else r.players
    started := true }

namespace Server

variable [Extern]

def openUdp (env : Env) (s : Server) (cid : Nat) (p : String) : Out Server :=
  if !s.config.udpEnabled then .ok (s.err p "udp_disabled")
  else
    Out.unwrap (s.players.get p) fun player =>
    if player.room.isNone then .ok (s.err p "no_room")
    else
      Out.unwrap (s.connections.get cid) fun c =>
      let secret := env.key s.draws
      let s := { s with draws := s.draws + 1 }.setConnection cid
        { c with udp := some (Udp.Session.new secret player.version) }
      .ok (s.sendC cid (.obj [("method", .str "udpSession"), ("data", .obj [
        ("connectionId", .str (Nat.repr cid)), ("secret", .str (Extern.base64 secret)),
        ("port", ofNat s.config.udpPort), ("version", ofNat 1),
        ("maxDatagramBytes", ofNat s.config.udpMaxDatagramBytes),
        ("maxPayloadBytes", ofNat (s.config.udpMaxDatagramBytes - 69)),
        ("endpointTtlMs", ofNat s.config.udpEndpointTtlMs), ("challengeTtlMs", ofNat s.config.udpChallengeTtlMs),
        ("incomingPacketsPerSecond", ofNat s.config.udpIncomingPacketsPerSecond),
        ("outgoingPacketsPerSecond", ofNat s.config.udpOutgoingPacketsPerSecond)])]))

def closeUdp (s : Server) (cid : Nat) : Out Server :=
  Out.unwrap (s.connections.get cid) fun c =>
  .ok ((s.setConnection cid { c with udp := none }).sendC cid
    (.obj [("method", .str "udpClosed"), ("data", .null)]))

def pong (env : Env) (s : Server) (cid : Nat) (p : String) (d : Value) : Out Server :=
  Out.unwrap (s.connections.get cid) fun c =>
  match c.ping with
  | none => .ok s
  | some t =>
    if d = ofNat t then
      Out.unwrap (s.players.get p) fun player =>
      .ok ((s.setConnection cid { c with ping := none }).setPlayer p { player with rtt := some (env.now - t) })
    else .ok s

/-- The rooms a listing shows `p` after a cursor, sorted by ID. -/
def listed (s : Server) (p after : String) : List Room :=
  (s.rooms.values.filter (fun r => decide (after < r.id) && (!r.started || r.active.contains p || r.rejoin p))).insertionSort
    (fun a b => a.id ≤ b.id)

/-- Grow a page room by room while it fits; `none` when not even one room does. -/
def pageLoop (s : Server) : List Room → List Value → Value → Option (List Value × Value)
  | [], data, cursor => some (data, cursor)
  | r :: rs, data, cursor =>
    let next := if rs.isEmpty then .null else .str r.id
    match s.encoded (onGetRooms (data ++ [s.dto r]) next) with
    | none => if data.isEmpty then none else some (data, cursor)
    | some _ => pageLoop s rs (data ++ [s.dto r]) next

def getRooms (s : Server) (p : String) (d : Value) : Server :=
  let after := lowerText (((d.idx "after").asStr).getD "")
  match s.pageLoop (s.listed p after) [] .null with
  | none => s.err p "response_too_large"
  | some (data, cursor) => s.send p (onGetRooms data cursor)

def savedRoom (s : Server) (r : Option Room) (p : String) : Value :=
  match r.filter (fun r => r.persistent && r.players.contains p) with
  | some r => s.dto r
  | none => .null

def getSavedRooms (env : Env) (p : String) : List Value → Server → Out Server
  | [], s => .ok s
  | id :: ids, s =>
    Out.unwrap id.asStr fun key =>
    match if s.rooms.contains key then .ok none else s.store.load key false env.now with
    | .error _ => .err s
    | .ok loaded =>
      let room := s.savedRoom ((s.rooms.get key).or loaded) p
      getSavedRooms env p ids (s.send p
        (.obj [("method", .str "savedRoom"), ("data", .obj [("roomId", id), ("room", room)])]))

/-- The accounts of a list of IDs, from memory or the store; `error` when a file does not parse. -/
def lookupPlayers (env : Env) (s : Server) : List Value → Option (Except Unit (List Player))
  | [] => some (.ok [])
  | id :: ids =>
    match id.asStr with
    | none => none
    | some key =>
      match s.players.get key with
      | some p => (lookupPlayers env s ids).map (Except.map (p :: ·))
      | none =>
        match s.store.account key env.now with
        | .error _ => some (.error ())
        | .ok none => lookupPlayers env s ids
        | .ok (some p) => (lookupPlayers env s ids).map (Except.map (p :: ·))

def getPlayers (env : Env) (s : Server) (p : String) (d : Value) : Out Server :=
  Out.unwrap (match d.asArray with
    | some ids => s.lookupPlayers env ids
    | none => some (.ok (s.players.values.filter (fun p => p.connection.isSome)))) fun
  | .error _ => .err s
  | .ok selected =>
    .ok (s.send p (.obj [("method", .str "onGetPlayers"),
      ("data", .arr ((selected.insertionSort (fun a b => playerLe a b = true)).map Player.dto))]))

def changeName (env : Env) (s : Server) (p : String) (d : Value) : Out Server :=
  Out.unwrap (s.players.get p) fun player =>
  Out.unwrap d.asStr fun name =>
  let player := { player with name := name }
  let s := s.setPlayer p player
  match s.store.saveAccount env.io player with
  | (st, false) => .err { s with store := st }
  | (st, true) =>
    let s := { s with store := st }
    match player.room.bind s.rooms.get with
    | none => .ok s
    | some r => .ok (s.broadcast r (.obj [("method", .str "nameChanged"),
        ("data", .obj [("name", d), ("playerId", .str p)])]) none none)

/-- A registration of a token ends every other registration of it. -/
def claimToken (p device : String) (token : Value) (a : Player) : Player :=
  { a with devices := a.devices.retain (fun id v =>
      decide (v.idx "token" ≠ token) || (decide (a.id = p) && decide (id = device))) }

/-- Register a device, dropping the oldest beyond four. -/
def registerDevice (a : Player) (device : String) (d : Value) : Player :=
  let devices := if !a.devices.contains device && decide (4 ≤ a.devices.size) then a.devices.dropFirst else a.devices
  { a with devices := devices.insert device (.obj [("token", d.idx "token"), ("foreground", d.idx "foreground"),
      ("language", .str (((d.idx "language").asStr).getD "en"))]) }

def setPushDevice (env : Env) (s : Server) (p : String) (d : Value) : Out Server :=
  if !s.push then .ok (s.err p "push_unavailable")
  else
    Out.unwrap (d.idx "deviceId").asStr fun device =>
    Out.unwrap (s.players.get p) fun player =>
    let s :=
      if (d.idx "token").isNull then s.setPlayer p { player with devices := player.devices.shiftRemove device }
      else
        let s := { s with players := s.players.mapVals (fun _ a => claimToken p device (d.idx "token") a) }
        { s with players := s.players.modify p (fun a => registerDevice a device d) }
    Out.unwrap (s.players.get p) fun player =>
    match s.store.saveAccount env.io player with
    | (st, false) => .err { s with store := st }
    | (st, true) => .ok ({ s with store := st }.send p (.obj [("method", .str "pushDeviceUpdated")]))

/-- May `p` report `target` in the room? -/
def mayReport (s : Server) (p target room : String) : Bool :=
  (s.rooms.get room).any (fun r => decide (target ≠ p) &&
    (decide (r.owner = target) || (r.players.contains p && r.players.contains target)))

def getModerationTicket (env : Env) (s : Server) (p : String) (d : Value) : Out Server :=
  let req := d.idx "requestId"
  Out.unwrap (d.idx "target").asStr fun target =>
  Out.unwrap (d.idx "room").asStr fun room =>
  let key := s.config.moderationSigningKey
  if key.isEmpty || !s.mayReport p target room then .ok (s.errorReply p req "moderation_unavailable")
  else
    let payload := Extern.base64Url (Extern.toVec (.obj [("reporter", .str p), ("target", .str target),
      ("room", .str room), ("expires", ofNat (env.now + 300000)), ("purpose", .str "profile-report-v1")]))
    let signature := Extern.base64Url (Extern.hmacSha256 key.toUTF8.toList payload.toUTF8.toList)
    .ok (s.reply p req (.obj [("ticket", .str (payload ++ "." ++ signature))]))

def createRoom (env : Env) (s : Server) (p : String) (d : Value) : Out Server :=
  Out.unwrap (s.players.get p) fun player =>
  if player.room.isSome then .ok (s.err p "in_other_room")
  else if s.config.maxRooms ≤ s.rooms.size then .ok (s.err p "limit_exceeded")
  else
    Out.unwrap (d.idx "name").asStr fun name =>
    Out.unwrap (d.idx "maxPlayers").asU64 fun max =>
    s.drawId env fun s id =>
    let r := { Room.new id name p max (d.idx "password") (d.idx "gameData") env.now with
               binary := decide (d.idx "binaryRelay" = .bool true) }
    if s.roomFits r = false then .ok (s.err p "payload_too_large")
    else
      Out.andThen (((s.record [.created id p]).setRoom id r).enter env p id (d.idx "password")) fun s =>
      Out.unwrap (s.rooms.get id) fun r =>
      .ok (s.lobby (.obj [("method", .str "roomCreated"), ("data", s.dto r)]))

/-- Only the owner goes on. -/
def ownerOnly (s : Server) (p : String) (r : Room) (k : Out (Server × Room)) : Out (Server × Room) :=
  if r.owner ≠ p then .ok (s.err p "not_room_owner", r) else k

/-- Queue a push for every device of one account that is not in the foreground, up to 32 in flight. -/
def pushDevices (notice : Value) (room event id : String) (online : Bool) :
    List (String × Value) → Server → Out Server
  | [], s => .ok s
  | (device, d) :: ds, s =>
    if decide (32 ≤ s.pushesInFlight) || (online && decide (d.idx "foreground" = .bool true)) then
      pushDevices notice room event id online ds s
    else
      let text := localized notice d
      Out.unwrap (d.idx "token").asStr fun token =>
      let job : LegacyPush := { player := id, device := device, token := token, notice := .obj [
        ("title", text.idx "title"), ("body", text.idx "body"), ("roomId", .str room), ("eventId", .str event)] }
      pushDevices notice room event id online ds
        { s with legacyPushes := s.legacyPushes ++ [job], pushesInFlight := s.pushesInFlight + 1 }

def pushTargets (notice : Value) (room event p : String) : List Value → Server → Out Server
  | [], s => .ok s
  | v :: vs, s =>
    Out.unwrap v.asStr fun id =>
    if id = p then pushTargets notice room event p vs s
    else match s.players.get id with
      | none => pushTargets notice room event p vs s
      | some a =>
        Out.andThen (pushDevices notice room event id a.connection.isSome a.devices.entries s)
          (pushTargets notice room event p vs)

def notifyPlayers (env : Env) (s : Server) (p : String) (r : Room) (d : Value) : Out (Server × Room) :=
  if !s.push then .ok (s.err p "push_unavailable", r)
  else s.ownerOnly p r <|
    Out.unwrap (if !r.started || !r.fixed then some true else (d.idx "to").asArray.bind (namesOutsider r)) fun
      outsider =>
    if outsider then .ok (s.err p "invalid_message", r)
    else
      Out.unwrap (d.idx "to").asArray fun targets =>
      Out.unwrap (d.idx "eventId").asStr fun event =>
      if r.events.contains event then .ok (s, r)
      else if env.now - r.lastPush < 30000 ∨ 32 ≤ s.pushesInFlight then .ok (s.err p "push_rate_limited", r)
      else mapOut (fun s => (s, { r with lastPush := env.now, events := recordEvent r.events event }))
        (pushTargets d r.id event p targets s)

def updateRoom (s : Server) (p : String) (r : Room) (d : Value) : Out (Server × Room) :=
  s.ownerOnly p r <|
    if r.started then .ok (s.err p "already_started", r)
    else
      let max := ((d.idx "maxPlayers").asU64).getD r.max
      if max < r.active.size then .ok (s.err p "room_too_small", r)
      else if s.roomFits (settings r max d) = false then .ok (s.err p "payload_too_large", r)
      else
        let r := joinClosed (settings r max d) d
        let msg := .obj [("method", .str "roomUpdated"), ("data", s.dto r)]
        .ok ((s.broadcast r msg none none).lobby msg, r)

/-- Encode once and send to the members the filters admit; the sender is told when it does not fit. -/
def relayTo (s : Server) (p : String) (r : Room) (v : Value) (except : Option String) (targets : Option Value) :
    Server :=
  match s.relay p v with
  | (s, some msg) => s.broadcastFrame r msg except targets
  | (s, none) => s

def chatMsg (p : String) (d : Value) : Value :=
  .obj [("method", .str "chatMsg"), ("data", .obj [("text", d), ("from", .str p)])]

def messageFromPlayer (p : String) (msg : Value) : Value :=
  .obj [("method", .str "messageFromPlayer"), ("data", .obj [("from", .str p), ("msg", msg)])]

def sendChatMsg (s : Server) (p : String) (r : Room) (d : Value) : Server := s.relayTo p r (chatMsg p d) none none

def sendToRoom (s : Server) (p : String) (r : Room) (d : Value) : Server :=
  s.relayTo p r (messageFromPlayer p d) (some p) none

def sendTo (s : Server) (p : String) (r : Room) (d : Value) : Server :=
  s.relayTo p r (messageFromPlayer p (d.idx "msg")) none (d.get "to")

def gameStateRequested (a : Player) : Value := .obj [("method", .str "gameStateRequested"), ("data", a.dto)]

def requestGameState (s : Server) (p : String) (r : Room) : Out (Server × Room) :=
  if r.active.contains r.owner then
    Out.unwrap (s.players.get p) fun a => .ok (s.send r.owner (gameStateRequested a), r)
  else .ok (s, r)

def gameStarted (d : Value) : Value := .obj [("method", .str "gameStarted"), ("data", d)]

def startGame (env : Env) (s : Server) (p : String) (r : Room) (d : Value) : Out (Server × Room) :=
  s.ownerOnly p r <|
    if r.started then .ok (s.err p "already_started", r)
    else match s.relay p (gameStarted d) with
      | (s, none) => .ok (s, r)
      | (s, some out) =>
        let r := startedRoom s.store.enabled r d env.now
        let s := s.record (if r.persistent then [.started r.id] else [])
        .ok ((s.broadcastFrame r out none none).lobby (.obj [("method", .str "roomBlock"), ("data", .str r.id)]), r)

def newGameState (d : Value) : Value := .obj [("method", .str "newGameState"), ("data", d.idx "gamestate")]

def shareGameState (s : Server) (p : String) (r : Room) (d : Value) : Out (Server × Room) :=
  s.ownerOnly p r <|
    .ok (s.relayTo p r (newGameState d) (if (d.get "to").isSome then none else some p) (d.get "to"), r)

def onSetRoomMeta (d : Value) : Value := .obj [("method", .str "onSetRoomMeta"), ("data", d)]

def setRoomMeta (s : Server) (p : String) (r : Room) (d : Value) : Out (Server × Room) :=
  s.ownerOnly p r <|
    if s.roomFits { r with metadata := d } = false then .ok (s.err p "payload_too_large", r)
    else match s.relay p (onSetRoomMeta d) with
      | (s, some out) => .ok (s.broadcastFrame { r with metadata := d } out none none, { r with metadata := d })
      | (s, none) => .ok (s, r)

def roomMessage (env : Env) (s : Server) (p : String) (r : Room) (m : String) (d : Value) : Out (Server × Room) :=
  if m ∈ ["getSession", "getSessionChunk", "beginSession", "commitSession"] then s.session env p r m d
  else if m = "notifyPlayers" then s.notifyPlayers env p r d
  else if m = "updateRoom" then s.updateRoom p r d
  else if m = "sendChatMsg" then .ok (s.sendChatMsg p r d, r)
  else if m = "sendToRoom" then .ok (s.sendToRoom p r d, r)
  else if m = "sendTo" then .ok (s.sendTo p r d, r)
  else if m = "requestGameState" then s.requestGameState p r
  else if m = "startGame" then s.startGame env p r d
  else if m = "shareGameState" then s.shareGameState p r d
  else if m = "setRoomMeta" then s.setRoomMeta p r d
  else .ok (s, r)

/-- The methods that act on the room the sender is in. -/
def inRoom (env : Env) (s : Server) (p m : String) (d : Value) : Out Server :=
  Out.unwrap (s.players.get p) fun player =>
  match player.room with
  | none => .ok (s.err p "no_room")
  | some id =>
    match s.rooms.get id with
    | none => .ok (s.err p "no_room")
    | some r => mapOut (putBack id) ((s.takeRoom id).roomMessage env p r m d)

def handle (env : Env) (s : Server) (cid : Nat) (p : String) (v : Value) : Out Server :=
  Out.unwrap (v.idx "method").asStr fun m =>
  let d := v.idx "data"
  if m = "openUdp" then s.openUdp env cid p
  else if m = "closeUdp" then s.closeUdp cid
  else if m = "Pong" then s.pong env cid p d
  else if m = "getRooms" then .ok (s.getRooms p d)
  else if m = "getSavedRooms" then Out.unwrap (d.idx "ids").asArray fun ids => getSavedRooms env p ids s
  else if m = "getPlayers" then s.getPlayers env p d
  else if m = "changeName" then s.changeName env p d
  else if m = "enterRoom" then
    Out.unwrap (d.idx "roomId").asStr fun id => s.enter env p id (d.idx "password")
  else if m = "leaveRoom" then s.leave env p false
  else if m = "setPushDevice" then s.setPushDevice env p d
  else if m = "getModerationTicket" then s.getModerationTicket env p d
  else if m = "createRoom" then s.createRoom env p d
  else s.inRoom env p m d

end Server
end Relay
