import GameRelay.Rooms
/-!
# Session — uploads, commits and binary frames (`server.rs`)

`upload`, `session` and `binary`.  The room they work on has been taken out of the map by the caller, which puts it
back; each records in `history` what the room's session went through.
-/
namespace Relay

open Value (ofNat)

/-- `u32::from_be_bytes`, of any number of bytes. -/
def bigEndian (b : Bytes) : Nat := b.foldl (fun n x => 256 * n + x.toNat) 0

/-- `u32::to_be_bytes`. -/
def u32Bytes (n : Nat) : Bytes :=
  [UInt8.ofNat (n / 2 ^ 24), UInt8.ofNat (n / 2 ^ 16), UInt8.ofNat (n / 2 ^ 8), UInt8.ofNat n]

/-- A frame an upload reads: a request, an offset and at least one byte. -/
def uploadShaped (b : Bytes) : Bool := decide (22 ≤ b.length) && decide (b.head? = some 2)

/-- The upload a chunk continues, with the chunk written at its offset. -/
def Upload.write (u : Upload) (payload : Bytes) (now : Nat) : Upload :=
  { u with bytes := u.bytes.take u.offset ++ payload ++ u.bytes.drop (u.offset + payload.length),
           offset := u.offset + payload.length, time := now }

/-- The chunk does not continue the pending upload of `p` in the room; `id` is the upload's request in bytes. -/
def staleChunk (r : Room) (u : Upload) (id : Bytes) (p : String) (b : Bytes) : Bool :=
  decide (id ≠ (b.drop 1).take 16) || decide (u.owner ≠ p) || decide (r.owner ≠ p) ||
    decide (u.generation ≠ r.generation) || decide (bigEndian ((b.drop 17).take 4) ≠ u.offset) ||
    decide (u.bytes.length < u.offset + b.length - 21)

/-- The complete pending upload a commit names. -/
def committable (r : Room) (p : String) (req : Value) (u : Upload) : Bool :=
  decide (Value.str u.id = req) && decide (u.owner = p) && decide (u.generation = r.generation) &&
    decide (u.revision = r.revision) && decide (u.offset = u.bytes.length)

/-- Does a target list name an account outside the roster?  `none` is a failed `unwrap`. -/
def namesOutsider (r : Room) : List Value → Option Bool
  | [] => some false
  | v :: vs =>
    match v.asStr with
    | none => none
    | some id => if !r.players.contains id then some true else namesOutsider r vs

def noticeOutsider (r : Room) (n : Value) : Option Bool :=
  match (n.idx "to").asArray with
  | none => some false
  | some a => namesOutsider r a

/-- Remember an event, forgetting the oldest beyond 128. -/
def recordEvent (events : IndexSet String) (e : String) : IndexSet String :=
  let events := events.insert e
  if 128 < events.size then events.dropFirst else events

/-- The room after its pending upload became its state. -/
def committed (r : Room) (u : Upload) (immediate : Value) (now : Nat) : Room :=
  { r with
    events := match (immediate.idx "eventId").asStr with
      | some e => recordEvent r.events e
      | none => r.events
    state := u.bytes
    upload := none
    revision := r.revision + 1
    updated := now }

namespace Server

variable [Extern]

def errorReply (s : Server) (p : String) (req : Value) (code : String) : Server :=
  s.reply p req (.obj [("error", .str code)])

def upload (env : Env) (s : Server) (p : String) (r : Room) (b : Bytes) : Out (Server × Room) :=
  if b.length < 22 then .ok (s, r)
  else match r.upload with
    | none => .ok (s, r)
    | some u =>
      Out.unwrap (parseUuid u.id) fun id =>
      if staleChunk r u id p b then
        .ok (s.errorReply p (.str u.id) "stale_session", { r with upload := none })
      else
        let u := u.write (b.drop 21) env.now
        .ok ((s.record [.uploaded r.id p (b.drop 21)]).reply p (.str u.id) (.obj [("offset", ofNat u.offset)]),
          { r with upload := some u })

/-- The frame that answers `getSessionChunk`. -/
def chunkFrame (s : Server) (r : Room) (id : Bytes) (off : Nat) : Bytes :=
  let n := min 32000 (min (s.config.maxPayloadBytes - 21) (min (s.config.maxBufferedBytes - 31)
    (r.state.length - off)))
  3 :: (id ++ u32Bytes off ++ (r.state.drop off).take n)

def getSessionChunk (s : Server) (p : String) (r : Room) (d : Value) : Out (Server × Room) :=
  Out.unwrap (d.idx "offset").asU64 fun off =>
  if d.idx "revision" ≠ ofNat r.revision ∨ r.state.length ≤ off then
    .ok (s.errorReply p (d.idx "requestId") "stale_session", r)
  else
    Out.unwrap ((d.idx "requestId").asStr.bind parseUuid) fun id =>
    .ok (s.bytes p (s.chunkFrame r id off), r)

def beginSession (env : Env) (s : Server) (p : String) (r : Room) (d : Value) : Out (Server × Room) :=
  let req := d.idx "requestId"
  if d.idx "revision" ≠ ofNat r.revision ∨ d.idx "generation" ≠ ofNat r.generation then
    .ok (s.errorReply p req "stale_session", r)
  else
    Out.unwrap (d.idx "size").asU64 fun size =>
    if s.config.maxSessionBytes < size then .ok (s.errorReply p req "payload_too_large", r)
    else
      Out.unwrap req.asStr fun id =>
      let u : Upload := { id := id, owner := p, generation := r.generation, revision := r.revision,
                          bytes := List.replicate size 0, offset := 0, time := env.now }
      .ok ((s.record [.began r.id p id r.generation r.revision size]).reply p req (.obj [("offset", ofNat 0)]),
        { r with upload := some u })

def commitSession (env : Env) (s : Server) (p : String) (r : Room) (d : Value) : Out (Server × Room) :=
  let req := d.idx "requestId"
  match r.upload.filter (committable r p req) with
  | none => .ok (s.errorReply p req "stale_session", r)
  | some u =>
    Out.unwrap (noticeOutsider r (d.idx "scheduled")) fun a =>
    Out.unwrap (if a then some true else noticeOutsider r (d.idx "immediate")) fun outsider =>
    if outsider then .ok (s.errorReply p req "invalid_message", r)
    else match s.store.commit env.io r (d.idx "scheduled") (d.idx "immediate") with
      | (st, false) => .ok ({ s with store := st }.errorReply p req "storage_error", r)
      | (st, true) =>
        let r := committed r u (d.idx "immediate") env.now
        let s := { s with store := st }.record [.committed r.id p r.revision r.state]
        let s := s.reply p req (.obj [("revision", ofNat r.revision)])
        .ok (s.broadcast r (.obj [("method", .str "sessionUpdated"),
          ("data", .obj [("revision", ofNat r.revision)])]) (some p) none, r)

def session (env : Env) (s : Server) (p : String) (r : Room) (m : String) (d : Value) : Out (Server × Room) :=
  let req := d.idx "requestId"
  if !r.persistent then .ok (s.errorReply p req "unavailable", r)
  else if m = "getSession" then
    .ok (s.reply p req (.obj [("revision", ofNat r.revision), ("generation", ofNat r.generation),
      ("size", ofNat r.state.length), ("startData", r.start)]), r)
  else if m = "getSessionChunk" then s.getSessionChunk p r d
  else if r.owner ≠ p then .ok (s.errorReply p req "not_room_owner", r)
  else if m = "beginSession" then s.beginSession env p r d
  else s.commitSession env p r d

/-- Send raw bytes to the members of a room other than `p` that `addressed` admits. -/
def relayBytes (s : Server) (r : Room) (p : String) (addressed : String → Bool) (b : Bytes) : Server :=
  r.active.items.foldl (fun s id => if decide (id ≠ p) && addressed id then s.bytes id b else s) s

/-- A binary routing header: version 1 and a nil or RFC 4122 address. -/
def routedHeader (b : Bytes) : Bool :=
  decide (18 ≤ b.length) && decide (b.head? = some 1) &&
    (decide ((b.drop 1).take 16 = List.replicate 16 0) ||
      (decide (1 ≤ (b[7]?.getD 0).toNat / 16 ∧ (b[7]?.getD 0).toNat / 16 ≤ 8) &&
        decide ((b[9]?.getD 0).toNat / 64 = 2)))

/-- Put a room back into the map after a method worked on it. -/
def putBack (id : String) (sr : Server × Room) : Server := sr.1.setRoom id sr.2

def takeRoom (s : Server) (id : String) : Server := { s with rooms := s.rooms.swapRemove id }

def mapOut {α β : Type} (f : α → β) : Out α → Out β
  | .ok a => .ok (f a)
  | .err a => .err (f a)
  | .halt h => .halt h

def binary (env : Env) (s : Server) (p : String) (b : Bytes) : Out Server :=
  Out.unwrap (s.players.get p) fun player =>
  match player.room with
  | none => .ok s
  | some id =>
    match s.rooms.get id with
    | none => .ok s
    | some r =>
      if r.persistent && decide (b.head? = some 2) then
        mapOut (putBack id) ((s.takeRoom id).upload env p r b)
      else if !r.binary then .ok (s.relayBytes r p (fun _ => true) b)
      else if routedHeader b = false then .ok (s.err p "invalid_message")
      else
        Out.unwrap (parseUuid p) fun sender =>
        let address := (b.drop 1).take 16
        let addressed := fun id => decide (address = List.replicate 16 0) || decide (uuidText address = id)
        .ok (s.relayBytes r p addressed (b.take 1 ++ sender ++ b.drop 17))

end Server
end Relay
