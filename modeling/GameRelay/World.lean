import GameRelay.Chain
import GameRelay.Keys
import GameRelay.Net
/-!
# World — accounts, rooms and connections as one system

`World` is what the relay is about, with maps for its tables and no sockets, queues or counters: who sits where, the
live rooms, their files and job lists, which connection is bound to which account.  `Effect a w w'` is what act `a`
does to it, one constructor for every way a command changes the tables; `Move` adds what sending does to connections.
`Server.world` reads the world off the server.
-/
namespace Relay

open Function (update)

structure Seat where
  id : String
  connection : Option Nat
  room : Option String
  password : String
  deriving DecidableEq

def Player.seat (p : Player) : Seat := ⟨p.id, p.connection, p.room, p.password⟩

def Seat.release (q : Seat) : Seat := { q with room := none }

structure World where
  config : Config
  seats : String → Option Seat
  rooms : String → Option Room
  files : String → Option RoomFile
  jobs : String → List Value
  history : List Event
  links : Nat → Option Link
  queue : List Delayed

def Server.world (s : Server) : World where
  config := s.config
  seats := fun id => (s.players.get id).map Player.seat
  rooms := s.rooms.get
  files := s.store.rooms.get
  jobs := fun id => (s.store.jobs.get id).getD []
  history := s.history
  links := s.links
  queue := s.delayed

/-- Frames went out and queued ones were dropped: nothing but closings changed. -/
def World.Sent (w w' : World) : Prop :=
  ∃ links queue, Kept w.links links ∧ queue ⊆ w.queue ∧ w' = { w with links := links, queue := queue }

namespace World.Sent

theorem refl (w : World) : w.Sent w := ⟨w.links, w.queue, .refl _, List.Subset.refl _, rfl⟩

theorem trans {w w' w'' : World} (h : w.Sent w') (h' : w'.Sent w'') : w.Sent w'' := by
  obtain ⟨l, q, hl, hq, rfl⟩ := h
  obtain ⟨l', q', hl', hq', rfl⟩ := h'
  exact ⟨l', q', hl.trans hl', List.Subset.trans hq' hq, rfl⟩

end World.Sent

/-- What one move of the relay is, and whose. -/
inductive Act where
  | quiet
  | connected (cid : Nat)
  | unlinked (cid : Nat)
  | gone (cid : Nat) (p : String)
  | queued (d : Delayed)
  | expired (id : String)
  | bound (cid : Nat) (id : String)
  | recalled (cid : Nat) (id : String)
  | departed (p : String)
  | text (p : String) (v : Value)
  | binary (p : String) (b : Bytes)
  | timedOut (now : Nat)
  | slept (id : String)

variable [Extern]

/-- A room passes the size check of its settings under this configuration. -/
def Config.RoomFits (c : Config) (r : Room) : Prop := ∃ s : Server, s.config = c ∧ s.roomFits r = true

/-- The room a file under this identifier holds. -/
def World.Stored (w : World) (id : String) (r : Room) : Prop :=
  ∃ now hd st, w.files (lowerText id) = some (.record hd st) ∧ hd.idx "roomId" = .str id ∧
    Store.headerLen hd ≤ Store.headerMax ∧ r = { Store.roomOf hd id now with state := st }

/-- The room an entry finds: live, or read back from its file. -/
def World.Found (w : World) (id : String) (r : Room) (loaded : Option Room) : Prop :=
  (loaded = none ∧ w.rooms id = some r) ∨ (loaded = some r ∧ w.rooms id = none ∧ w.Stored id r)

/-- The room without `p`, and without anyone when its game ends with `p`. -/
def remains (r : Room) (p : String) (disconnected : Bool) : Room :=
  if Server.ownerLost (Server.departed r p disconnected) p then
    { Server.departed r p disconnected with active := IndexSet.empty }
  else Server.departed r p disconnected

/-- Who leaves the room when `p` does. -/
def released (r : Room) (p : String) (disconnected : Bool) : List String :=
  p :: if Server.ownerLost (Server.departed r p disconnected) p then (Server.departed r p disconnected).active.items
    else []

/-- The room with a new owner when `p` owned it. -/
def handedOver (r : Room) (p first : String) : Room := if r.owner = p then Server.elected r first else r

def releaseAll (seats : String → Option Seat) (ids : List String) : String → Option Seat :=
  fun x => if x ∈ ids then (seats x).map Seat.release else seats x

/-- Leaving a room for good gives up every seat elsewhere. -/
def dropSeats (rooms : String → Option Room) (p : String) (disconnected : Bool) : String → Option Room :=
  fun x => if disconnected then rooms x else (rooms x).map (Room.dropReservation p)

/-- A room that is no longer live is written to its file; the quota may then evict files of rooms that are not live. -/
inductive World.Sleeps (r : Room) (w : World) : World → Prop
  | mk (gone cleared : List String) (hlive : ∀ x ∈ gone, w.rooms x = none) (hcleared : cleared ⊆ gone)
      (hfile : ∀ x ∈ gone, (update w.files (lowerText r.id) (some (.record r.header r.state)) x).isSome) :
      Sleeps r w { w with
        files := fun k => if k ∈ gone.map lowerText then none else
          update w.files (lowerText r.id) (some (.record r.header r.state)) k
        jobs := fun x => if x ∈ cleared then [] else w.jobs x
        history := w.history ++ gone.map .evicted }

/-- `p` leaves its room; `disconnected` keeps its seat in a started game. -/
inductive World.Left (p : String) (d : Bool) (w : World) : World → Prop
  | nowhere {q : Seat} (hq : w.seats p = some q) (hr : q.room.bind (dropSeats w.rooms p d) = none) :
      Left p d w { w with seats := releaseAll w.seats [p], rooms := dropSeats w.rooms p d }
  | deleted {q : Seat} {id : String} {r : Room} (hq : w.seats p = some q) (hid : q.room = some id)
      (hr : dropSeats w.rooms p d id = some r) (he : (remains r p d).active.isEmpty = true) (hp : r.persistent = false) :
      Left p d w { w with seats := releaseAll w.seats (released r p d), rooms := update (dropSeats w.rooms p d) id none }
  | slept {q : Seat} {id : String} {r : Room} {w' : World} (hq : w.seats p = some q) (hid : q.room = some id)
      (hr : dropSeats w.rooms p d id = some r) (he : (remains r p d).active.isEmpty = true) (hp : r.persistent = true)
      (hs : World.Sleeps (remains r p d)
        { w with seats := releaseAll w.seats (released r p d), rooms := update (dropSeats w.rooms p d) id none } w') :
      Left p d w w'
  | kept {q : Seat} {id : String} {r : Room} (hq : w.seats p = some q) (hid : q.room = some id)
      (hr : dropSeats w.rooms p d id = some r) (he : (remains r p d).active.isEmpty = true) (hp : r.persistent = true) :
      Left p d w { w with seats := releaseAll w.seats (released r p d),
                          rooms := update (dropSeats w.rooms p d) id (some (remains r p d)) }
  | stayed {q : Seat} {id : String} {r : Room} {first : String} (hq : w.seats p = some q) (hid : q.room = some id)
      (hr : dropSeats w.rooms p d id = some r) (hf : (remains r p d).active.first = some first) :
      Left p d w { w with
        seats := releaseAll w.seats (released r p d)
        rooms := update (dropSeats w.rooms p d) id (some (handedOver (remains r p d) p first))
        history := w.history ++ if r.owner = p then [.hosted r.id first (r.generation + 1)] else [] }

/-- How a message of `p` with this data changes the room it is in and the job lists. -/
inductive Edit (c : Config) (jobs : String → List Value) (p : String) (d : Value) (r : Room) :
    Room → List Event → (String → List Value) → Prop
  | none : Edit c jobs p d r r [] jobs
  | settings {max : Nat} (ho : r.owner = p) (hs : r.started = false)
      (hmax : max = ((d.idx "maxPlayers").asU64).getD r.max) (hsize : r.active.size ≤ max)
      (hfit : c.RoomFits (settings r max d)) : Edit c jobs p d r (joinClosed (settings r max d) d) [] jobs
  | started {enabled : Bool} {now : Nat} (ho : r.owner = p) (hs : r.started = false) :
      Edit c jobs p d r (startedRoom enabled r d now)
        (if (startedRoom enabled r d now).persistent then [.started r.id] else []) jobs
  | metadata (ho : r.owner = p) (hfit : c.RoomFits { r with metadata := d }) :
      Edit c jobs p d r { r with metadata := d } [] jobs
  | pushed {e : String} {now : Nat} (ho : r.owner = p) :
      Edit c jobs p d r { r with lastPush := now, events := recordEvent r.events e } [] jobs
  | began {id : String} {size now : Nat} (hp : r.persistent = true) (ho : r.owner = p)
      (hrev : d.idx "revision" = Value.ofNat r.revision) (hgen : d.idx "generation" = Value.ofNat r.generation)
      (hreq : d.idx "requestId" = .str id) (hsize : size ≤ c.maxSessionBytes) :
      Edit c jobs p d r
        { r with upload := some { id := id, owner := p, generation := r.generation, revision := r.revision,
                                  bytes := List.replicate size 0, offset := 0, time := now } }
        [.began r.id p id r.generation r.revision size] jobs
  | commit {u : Upload} {now : Nat} (hp : r.persistent = true) (ho : r.owner = p) (hu : r.upload = some u)
      (hc : committable r p (d.idx "requestId") u = true) :
      Edit c jobs p d r (committed r u (d.idx "immediate") now) [.committed r.id p (r.revision + 1) u.bytes]
        (update jobs r.id (Store.commitJobs r.events (jobs r.id) (d.idx "scheduled") (d.idx "immediate")))

/-- The live room an account sits in. -/
def World.Sits (w : World) (p id : String) (r : Room) : Prop :=
  (∃ q, w.seats p = some q ∧ q.room = some id) ∧ w.rooms id = some r

def World.enterSeat (w : World) (p id : String) (q : Seat) : String → Option Seat :=
  update w.seats p (some { q with room := some id })

inductive Effect : Act → World → World → Prop
  | idle (a : Act) (w : World) : Effect a w w
  | connected {w : World} {cid : Nat} (h : w.links cid = none) :
      Effect (.connected cid) w { w with links := update w.links cid (some ⟨none, false, none, ⟨0, 0⟩, ⟨0, 0⟩⟩) }
  | unlinked {w : World} {cid : Nat} {l : Link} (hl : w.links cid = some l)
      (hq : ∀ id q, l.player = some id → w.seats id = some q → q.connection ≠ some cid) :
      Effect (.unlinked cid) w { w with links := update w.links cid none }
  | gone {w w' : World} {cid : Nat} {l : Link} {p : String} {q : Seat} (hl : w.links cid = some l)
      (hp : l.player = some p) (hq : w.seats p = some q) (hc : q.connection = some cid)
      (h : World.Left p true { w with seats := update w.seats p (some { q with connection := none }),
                                      links := update w.links cid none } w') :
      Effect (.gone cid p) w w'
  | queued {w : World} {d : Delayed}
      (hd : ∀ t, d.frame = .text t → ∃ v, Protocol.parse t = some v ∧
        Protocol.validate v w.config.maxRoomPlayers w.config.maxAccounts = true) :
      Effect (.queued d) w { w with queue := w.queue ++ [d] }
  | expired {w : World} {id : String} {q : Seat} (hq : w.seats id = some q) (hc : q.connection = none)
      (hf : ∀ rid r, w.rooms rid = some r → r.fixed = true → ¬ id ∈ r.players) :
      Effect (.expired id) w
        { w with seats := update w.seats id none, rooms := fun x => (w.rooms x).map (Room.dropReservation id) }
  | bound {w : World} {cid : Nat} {id : String} {q : Seat} {l : Link} (hl : w.links cid = some l)
      (hp : l.player = none) (hq : w.seats id = some q) :
      Effect (.bound cid id) w { w with
        seats := update w.seats id (some { q with connection := some cid })
        links := update (closeLink w.links q.connection) cid (some { l with player := some id }) }
  | recalled {w : World} {cid : Nat} {id pw : String} {l : Link} (hl : w.links cid = some l) (hp : l.player = none) :
      Effect (.recalled cid id) w { w with
        seats := update w.seats id (some ⟨id, some cid, none, pw⟩)
        links := update w.links cid (some { l with player := some id }) }
  | rekeyed {w : World} {cid : Nat} {p : String} {v : Value} {l : Link} {u : Option Udp.Session}
      (hl : w.links cid = some l) (hu : u = none ∨ ∃ key version, u = some (Udp.Session.new key version)) :
      Effect (.text p v) w { w with links := update w.links cid (some { l with udp := u }) }
  | departed {w w' : World} {p : String} (h : World.Left p true w w') : Effect (.departed p) w w'
  | left {w w' : World} {p : String} {v : Value} (h : World.Left p false w w') : Effect (.text p v) w w'
  | entered {w : World} {p id : String} {v pw : Value} {q : Seat} {r : Room} {loaded : Option Room}
      (hq : w.seats p = some q) (hc : q.connection.isSome) (hr : q.room = none) (hf : w.Found id r loaded)
      (he : Server.entryError r p pw = none) (hm : v.idx "method" = .str "enterRoom")
      (hid : (v.idx "data").idx "roomId" = .str id) (hpw : (v.idx "data").idx "password" = pw) :
      Effect (.text p v) w { w with
        seats := w.enterSeat p id q
        rooms := update w.rooms id (some (Server.joined r p))
        history := w.history ++ Server.entryEvents loaded r p }
  | refused {w : World} {p id e : String} {v pw : Value} {q : Seat} {r : Room}
      (hm : v.idx "method" = .str "enterRoom") (hid : (v.idx "data").idx "roomId" = .str id)
      (hpw : (v.idx "data").idx "password" = pw) (hq : w.seats p = some q) (hroom : q.room = none)
      (hr : w.rooms id = some r) (ha : r.active.isEmpty = true) (hp : r.persistent = true)
      (he : Server.entryError r p pw = some e) :
      Effect (.text p v) w { w with rooms := update w.rooms id none }
  | created {w : World} {p id name : String} {v pw game : Value} {q : Seat} {r : Room} {max now : Nat} {binary : Bool}
      (hq : w.seats p = some q) (hc : q.connection.isSome) (hr : q.room = none) (hid : w.rooms id = none)
      (hfile : w.files id = none) (hhist : ∀ e ∈ w.history, e.room ≠ id) (hlow : lowerText id = id)
      (hroom : r = { Room.new id name p max pw game now with binary := binary }) (hmax : 1 ≤ max)
      (hfit : w.config.RoomFits r) (hfree : ∃ n, n < w.config.maxRooms ∧ AtMost w.rooms n) :
      Effect (.text p v) w { w with
        seats := w.enterSeat p id q
        rooms := update w.rooms id (some (Server.joined r p))
        history := w.history ++ [.created id p] }
  | edited {w : World} {p id : String} {v : Value} {r r' : Room} {es : List Event} {jobs : String → List Value}
      (hs : w.Sits p id r) (he : Edit w.config w.jobs p (v.idx "data") r r' es jobs) :
      Effect (.text p v) w
        { w with rooms := update w.rooms id (some r'), history := w.history ++ es, jobs := jobs }
  | wrote {w : World} {p id : String} {b bid : Bytes} {r : Room} {u : Upload} {now : Nat} (hs : w.Sits p id r)
      (hp : r.persistent = true) (hb : uploadShaped b = true) (hu : r.upload = some u)
      (hid : parseUuid u.id = some bid) (hst : staleChunk r u bid p b = false) :
      Effect (.binary p b) w { w with
        rooms := update w.rooms id (some { r with upload := some (u.write (b.drop 21) now) })
        history := w.history ++ [.uploaded r.id p (b.drop 21)] }
  | rejected {w : World} {p id : String} {b bid : Bytes} {r : Room} {u : Upload} (hs : w.Sits p id r)
      (hp : r.persistent = true) (hb : uploadShaped b = true) (hu : r.upload = some u)
      (hid : parseUuid u.id = some bid) (hst : staleChunk r u bid p b = true) :
      Effect (.binary p b) w { w with rooms := update w.rooms id (some { r with upload := none }) }
  | timedOut {w : World} {now : Nat} :
      Effect (.timedOut now) w { w with rooms := fun x => (w.rooms x).map (Server.timeoutUpload now) }
  | slept {w w' : World} {id : String} {r : Room} (hr : w.rooms id = some r) (hp : r.persistent = true)
      (ha : r.active.isEmpty = true) (h : World.Sleeps r { w with rooms := update w.rooms id none } w') :
      Effect (.slept id) w w'

/-- One act, and the frames it sends. -/
def Move (a : Act) (w w' : World) : Prop := ∃ w₁, Effect a w w₁ ∧ w₁.Sent w'

end Relay
