import GameRelay.Server
/-!
# Rooms — entering, keeping and leaving (`server.rs`)

`enter`, `keep`, `leave`, `expire` and `disconnect`.  The steps of `leave` on the room alone are `departed` and
`elected`, and the check of `enter` is `entryError`.
-/
namespace Relay

open Value (ofNat strs)

/-- A drawn identifier never repeats one the server knows or has drawn. -/
def Core.inUse (s : Core) (id : String) : Bool :=
  decide (id ∈ s.drawn) || s.players.contains id || s.rooms.contains id || s.store.accounts.contains id ||
    s.store.rooms.contains id || s.store.jobs.contains id || s.history.any (fun e => decide (e.room = id))

def Room.dropReservation (p : String) (r : Room) : Room := { r with reservations := r.reservations.shiftRemove p }

namespace Server

variable [Extern]

def drawId {α : Type} (env : Env) (s : Server) (k : Server → String → Out α) : Out α :=
  let id := (env.uuid s.draws).text
  if s.inUse id then .halt .collision else k { s with draws := s.draws + 1, drawn := id :: s.drawn } id

def setRoom (s : Server) (id : String) (r : Room) : Server := { s with rooms := s.rooms.insert id r }

def removeRoom (s : Server) (id : String) : Server := { s with rooms := s.rooms.shiftRemove id }

/-- Every room forgets the seat `p` held. -/
def dropReservations (s : Server) (p : String) : Server :=
  { s with rooms := s.rooms.mapVals (fun _ r => r.dropReservation p) }

/-- An offline account past its time to live, unless a live room keeps its seat. -/
def isExpired (s : Server) (now : Nat) (p : Player) : Bool :=
  p.connection.isNone && p.offline.any (fun t => decide (s.config.accountTtlMs ≤ now - t)) &&
    !s.rooms.values.any (fun r => r.fixed && r.players.contains p.id)

def removeAccount (s : Server) (id : String) : Server :=
  { s with players := s.players.shiftRemove id }.dropReservations id

def expire (s : Server) (now : Nat) : Server :=
  ((s.players.values.filter (s.isExpired now)).map (·.id)).foldl removeAccount s

def keep (env : Env) (s : Server) (r : Room) : Server :=
  if r.persistent && r.active.isEmpty then
    match s.store.save env.io r with
    | (st, true) =>
      let pruned := st.prune env.io s.rooms.keys env.now
      let s := { s with store := pruned.store }.record (pruned.gone.map .evicted)
      if pruned.ok then
        pruned.gone.foldl (fun s id => s.lobby (.obj [("method", .str "roomDeleted"), ("data", .str id)])) s
      else s
    | (st, false) => { s with store := st }.setRoom r.id r
  else s.setRoom r.id r

/-- Why `p` may not enter the room with this password, if so. -/
def entryError (r : Room) (p : String) (password : Value) : Option String :=
  if !r.started && r.closed then some "room_closed"
  else if r.started && !r.rejoin p then some "game_started_without_you"
  else if !r.started && decide (password ≠ r.password) then some "wrong_password"
  else if r.max ≤ r.active.size then some "full_room"
  else none

/-- The first to enter an empty persistent room becomes its host. -/
def hosts (r : Room) : Bool := r.persistent && r.active.isEmpty

/-- The room with `p` added. -/
def joined (r : Room) (p : String) : Room :=
  let r := if hosts r then { r with owner := p, generation := r.generation + 1, upload := none } else r
  { r with active := r.active.insert p, reservations := r.reservations.shiftRemove p }

def entryEvents (loaded : Option Room) (r : Room) (p : String) : List Event :=
  (if loaded.isSome then [.woken r.id] else []) ++ if hosts r then [.hosted r.id p (r.generation + 1)] else []

/-- `p` takes its place in the room, and the room is told. -/
def seatIn (env : Env) (s : Server) (p id : String) (player : Player) (loaded : Option Room) (r : Room) : Server :=
  let s := s.record (entryEvents loaded r p)
  let r := joined r p
  let player := { player with room := some id, entered := some env.now, version := player.version + 1 }
  let s := (s.setRoom id r).setPlayer p player
  let s := s.broadcast r (.obj [("method", .str "playerEnter"), ("data", player.dto)]) (some p) none
  s.send p (.obj [("method", .str "onRoomEnter"), ("data", s.dto r)])

def enter (env : Env) (s : Server) (p id : String) (password : Value) : Out Server :=
  Out.unwrap (s.players.get p) fun player =>
  match player.room with
  | some room => .ok (s.err p (if room = id then "already_in_room" else "in_other_room"))
  | none =>
    match if s.rooms.contains id then .ok none else s.store.load id true env.now with
    | .error _ => .err s
    | .ok loaded =>
      let s := match loaded with
        | some r => s.setRoom id r
        | none => s
      match s.rooms.get id with
      | none => .ok (s.err p "no_room")
      | some r =>
        match entryError r p password with
        | some e =>
          let s := s.err p e
          .ok (if r.active.isEmpty && r.persistent then s.removeRoom id else s)
        | none => .ok (s.seatIn env p id player loaded r)

/-- What refusals, loading, unloading and seating keep, `enter` keeps. -/
theorem enter_all {I : Server → Prop} {env : Env} {s : Server} {p id : String} {password : Value} (hs : I s)
    (herr : ∀ t code, I t → I (t.err p code)) (hload : ∀ r, I (s.setRoom id r)) (hunload : ∀ t, I t → I (t.removeRoom id))
    (hseat : ∀ t player loaded r, s.players.get p = some player → t.players = s.players → I t →
      I (t.seatIn env p id player loaded r)) : (s.enter env p id password).All I := by
  unfold enter
  refine Out.all_unwrap (fun player hp => ?_)
  have hfound : ∀ (loaded : Option Room) (t : Server), I t → t.players = s.players → (match t.rooms.get id with
      | none => .ok (t.err p "no_room")
      | some r => match entryError r p password with
        | some e => .ok (if r.active.isEmpty && r.persistent then (t.err p e).removeRoom id else t.err p e)
        | none => .ok (t.seatIn env p id player loaded r) : Out Server).All I := by
    intro loaded t ht hpl
    split
    · exact herr t _ ht
    rename_i r _
    split
    · rename_i e _
      cases r.active.isEmpty && r.persistent
      · exact herr t e ht
      · exact hunload _ (herr t e ht)
    · exact hseat t player loaded r hp hpl ht
  split
  · exact herr s _ hs
  split
  · exact hs
  rename_i loaded _
  cases loaded with
  | none => exact hfound none s hs rfl
  | some r => exact hfound (some r) (s.setRoom id r) (hload r) rfl

/-- The room without `p`: its upload ends, and a started room keeps the seat of a disconnected member. -/
def departed (r : Room) (p : String) (disconnected : Bool) : Room :=
  let r := { r with active := r.active.shiftRemove p }
  let r := if r.upload.any (fun u => decide (u.owner = p)) then { r with upload := none } else r
  if disconnected && r.started then { r with reservations := r.reservations.insert p }
  else { r with reservations := r.reservations.shiftRemove p }

/-- A fixed game without host migration ends when its owner goes. -/
def ownerLost (r : Room) (p : String) : Bool := r.started && r.fixed && !r.migration && decide (r.owner = p)

def releasePlayer (p : Player) : Player := { p with room := none, entered := none, version := p.version + 1 }

/-- Take every member of a closing room out of it. -/
def releaseMembers (s : Server) (ids : List String) : Server :=
  ids.foldl (fun s id => { s with players := s.players.modify id releasePlayer }) s

/-- The first remaining member takes over from an owner who left. -/
def elected (r : Room) (first : String) : Room := { r with owner := first, generation := r.generation + 1 }

def newRoomOwner (r : Room) : Value :=
  .obj [("method", .str "newRoomOwner"), ("data",
    if r.migration then .obj [("playerId", .str r.owner), ("generation", ofNat r.generation)] else .str r.owner)]

/-- Offer the room again to the absent members of its fixed roster. -/
def offerSeats (s : Server) (r : Room) : Server :=
  if r.started && r.fixed then
    r.players.items.foldl (fun s id =>
      if (s.players.get id).any (fun p => p.room.isNone) then
        s.send id (.obj [("method", .str "roomCreated"), ("data", s.dto r)])
      else s) s
  else s

def leave (env : Env) (s : Server) (p : String) (disconnected : Bool) : Out Server :=
  Out.unwrap (s.players.get p) fun player =>
  let s := s.setPlayer p (releasePlayer player)
  let s := if disconnected then s else s.dropReservations p
  match player.room with
  | none => .ok s
  | some id =>
    match s.rooms.get id with
    | none => .ok s
    | some r =>
      let s := s.removeRoom id
      let r := departed r p disconnected
      let s := s.broadcast r (.obj [("method", .str (if disconnected then "playerDisconnected" else "playerLeft")),
        ("data", .str p)]) none none
      let lost := ownerLost r p
      let s := if lost then s.releaseMembers r.active.items else s
      let r := if lost then { r with active := IndexSet.empty } else r
      if r.active.isEmpty then
        if r.persistent then .ok (s.keep env r)
        else .ok (s.lobby (.obj [("method", .str "roomDeleted"), ("data", .str r.id)]))
      else
        Out.unwrap r.active.first fun first =>
        let s := if r.owner = p then (s.record [.hosted r.id first (r.generation + 1)]).broadcast (elected r first)
            (newRoomOwner (elected r first)) none none else s
        let r := if r.owner = p then elected r first else r
        .ok ((s.offerSeats r).setRoom r.id r)

def disconnect (env : Env) (s : Server) (cid : Nat) : Out Server :=
  match s.connections.get cid with
  | none => .ok s
  | some c =>
    let s := { s with delayed := s.delayed.filter (fun d => decide (d.cid ≠ cid)),
                      connections := s.connections.shiftRemove cid }
    match c.player with
    | none => .ok s
    | some id =>
      match s.players.get id with
      | none => .ok s
      | some p =>
        if p.connection = some cid then
          -- the returned `Err` of `leave` is dropped
          match (s.setPlayer id { p with connection := none, offline := some env.now }).leave env id true with
          | .ok s => .ok s
          | .err s => .ok s
          | .halt h => .halt h
        else .ok s

end Server
end Relay
