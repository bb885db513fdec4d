import GameRelay.IndexMap
import GameRelay.Config
/-!
# Model — accounts, rooms and uploads (`model.rs`)

Texts that leave the server are kept as JSON values; their bytes are `Protocol.stringify` of the value.  Times are
milliseconds since the epoch, and one step of the server reads the clock once.
-/
namespace Relay

open Value (ofNat ofOption strs)

structure Player where
  id : String
  name : String
  password : String
  connection : Option Nat
  room : Option String
  entered : Option Nat
  rtt : Option Nat
  offline : Option Nat
  version : Nat
  devices : IndexMap String Value

/-- A new account; `id` and `password` are drawn by the caller. -/
def Player.new (id password name : String) (now : Nat) : Player where
  id := id
  name := name
  password := password
  connection := none
  room := none
  entered := none
  rtt := none
  offline := some now
  version := 0
  devices := IndexMap.empty

def Player.dto (p : Player) : Value :=
  .obj [("playerId", .str p.id), ("name", .str p.name), ("rtt", ofOption p.rtt),
    ("roomEntryTimestamp", ofOption p.entered)]

structure Upload where
  id : String
  owner : String
  generation : Nat
  revision : Nat
  bytes : Bytes
  offset : Nat
  time : Nat
  deriving DecidableEq

structure Room where
  id : String
  name : String
  owner : String
  max : Nat
  password : Value
  game : Value
  metadata : Value
  active : IndexSet String
  reservations : IndexSet String
  players : IndexSet String
  events : IndexSet String
  started : Bool
  closed : Bool
  fixed : Bool
  migration : Bool
  generation : Nat
  binary : Bool
  persistent : Bool
  start : Value
  state : Bytes
  revision : Nat
  updated : Nat
  upload : Option Upload
  lastPush : Nat

/-- A new room; `id` is drawn by the caller. -/
def Room.new (id name owner : String) (max : Nat) (password game : Value) (now : Nat) : Room where
  id := id
  name := name
  owner := owner
  max := max
  password := password
  game := game
  metadata := .null
  active := IndexSet.empty
  reservations := IndexSet.empty
  players := IndexSet.empty
  events := IndexSet.empty
  started := false
  closed := false
  fixed := false
  migration := false
  generation := 0
  binary := false
  persistent := false
  start := .null
  state := []
  revision := 0
  updated := now
  upload := none
  lastPush := 0

namespace Room

def rejoin (r : Room) (p : String) : Bool :=
  if r.fixed then r.players.contains p else r.reservations.contains p

/-- The fields a room's DTO always has, in order. -/
def dtoFields (r : Room) (rtt : Option Nat) : List (String × Value) :=
  [("roomId", .str r.id), ("ownerId", .str r.owner), ("name", .str r.name), ("players", strs r.active.items),
    ("maxPlayers", ofNat r.max), ("hasPassword", .bool !r.password.isNull), ("gameData", r.game),
    ("gameStarted", .bool r.started), ("joinClosed", .bool r.closed), ("rtt", ofOption rtt),
    ("metaData", r.metadata)]

/-- The fields a room's DTO gains with host migration, binary relay and persistence. -/
def dtoExtra (r : Room) : List (String × Value) :=
  (if r.migration then [("hostGeneration", ofNat r.generation)] else []) ++
    (if r.binary then [("binaryRelay", .bool true)] else []) ++
    (if r.persistent then [("persistent", .bool true), ("participants", strs r.players.items)] else [])

def dto (r : Room) (rtt : Option Nat) : Value := .obj (r.dtoFields rtt ++ r.dtoExtra)

def header (r : Room) : Value :=
  .obj [("version", ofNat 1), ("roomId", .str r.id), ("name", .str r.name), ("ownerId", .str r.owner),
    ("maxPlayers", ofNat r.max), ("password", r.password), ("gameData", r.game), ("metaData", r.metadata),
    ("startData", r.start), ("players", strs r.players.items), ("generation", ofNat r.generation),
    ("binaryRelay", .bool r.binary), ("revision", ofNat r.revision), ("updatedAt", ofNat r.updated),
    ("events", strs r.events.items)]

end Room
end Relay
