import GameRelay.Store
import GameRelay.Udp
/-!
# Server — the relay's state and its outgoing frames (`server.rs`)

`Core` is everything the sending functions only read; `Server` adds the connections and `offered`, the frames handed to
`raw` so far.  `offered`, `Core.drawn` and `Core.history` are histories: no decision of the server reads them.  A method
returns an `Out`: the new state, the new state with a returned `Err`, or nothing when an `unwrap` failed or a drawn
identifier was in use.
-/
namespace Relay

open Value (ofNat strs)

/-- An incoming WebSocket frame. -/
inductive Frame where
  | text (s : String)
  | binary (b : Bytes)
  | ping (b : Bytes)
  | pong (b : Bytes)
  deriving DecidableEq

def Frame.len : Frame → Nat
  | .text s => s.utf8ByteSize
  | .binary b | .ping b | .pong b => b.length

/-- An outgoing WebSocket frame; a text frame is the text of its value. -/
inductive Message where
  | text (v : Value)
  | binary (b : Bytes)
  | ping (b : Bytes)
  | pong (b : Bytes)
  | close (code : Nat) (reason : String)
  deriving DecidableEq

def Message.isClose : Message → Bool
  | .close _ _ => true
  | _ => false

def Message.len [Extern] : Message → Nat
  | .text v => Protocol.size v
  | .binary b | .ping b | .pong b => b.length
  | .close _ reason => reason.utf8ByteSize

/-- What a queued frame costs: its length and its frame header. -/
def Message.cost [Extern] (m : Message) : Nat :=
  m.len + match m with
    | .ping _ | .pong _ => 2
    | _ => 10

structure Connection where
  udp : Option Udp.Session
  udpIncomingRate : Udp.Rate
  udpOutgoingRate : Udp.Rate
  out : List Message
  /-- The socket task still holds the receiving end of `out`. -/
  receiver : Bool
  queued : Nat
  player : Option String
  created : Nat
  activity : Nat
  ping : Option Nat
  lastPing : Nat
  rateAt : Nat
  messages : Nat
  delayed : Nat
  pending : Nat
  closing : Bool
  abort : Bool

structure Delayed where
  time : Nat
  cid : Nat
  version : Nat
  roomScoped : Bool
  frame : Frame
  size : Nat
  deriving DecidableEq

structure LegacyPush where
  player : String
  device : String
  token : String
  notice : Value

/-- What happened to a room, for the record. -/
inductive Event where
  | created (room owner : String)
  /-- A game began that outlives its members. -/
  | started (room : String)
  /-- A new host, under a new generation. -/
  | hosted (room owner : String) (generation : Nat)
  /-- Read back from its file. -/
  | woken (room : String)
  | began (room player request : String) (generation revision size : Nat)
  | uploaded (room player : String) (payload : Bytes)
  | committed (room player : String) (revision : Nat) (state : Bytes)
  | evicted (room : String)
  deriving DecidableEq

def Event.room : Event → String
  | .created room _ | .started room | .woken room | .evicted room => room
  | .hosted room _ _ | .uploaded room _ _ => room
  | .committed room _ _ _ => room
  | .began room _ _ _ _ _ => room

structure Core where
  config : Config
  players : IndexMap String Player
  rooms : IndexMap String Room
  store : Store
  delayed : List Delayed
  push : Bool
  pushesInFlight : Nat
  legacyPushes : List LegacyPush
  draws : Nat
  drawn : List String
  history : List Event

structure Server extends Core where
  connections : IndexMap Nat Connection
  offered : List (Nat × Message)

/-- What one step reads from outside: the clock, drawn identifiers, secrets and keys, and which file operations fail. -/
structure Env where
  now : Nat
  uuid : Nat → UuidV4
  secret : Nat → String
  key : Nat → Bytes
  io : Nat → Bool

inductive Halt where
  | panic
  | collision
  deriving DecidableEq

inductive Out (α : Type) where
  | ok (a : α)
  | err (a : α)
  | halt (h : Halt)

namespace Out

variable {α β : Type}

/-- `unwrap` and go on. -/
def unwrap (x : Option β) (k : β → Out α) : Out α :=
  match x with
  | some b => k b
  | none => .halt .panic

/-- Rust's `?`: go on after `Ok`, return at `Err`. -/
def andThen (o : Out α) (k : α → Out α) : Out α :=
  match o with
  | .ok a => k a
  | .err a => .err a
  | .halt h => .halt h

/-- The state left behind, whether `Ok` or `Err`. -/
def state : Out α → Option α
  | .ok a | .err a => some a
  | .halt _ => none

/-- Every state a method may leave satisfies `P`. -/
def All (P : α → Prop) : Out α → Prop
  | .ok a | .err a => P a
  | .halt _ => True

@[simp] theorem all_ok {P : α → Prop} {a : α} : (Out.ok a).All P ↔ P a := Iff.rfl

@[simp] theorem all_err {P : α → Prop} {a : α} : (Out.err a).All P ↔ P a := Iff.rfl

@[simp] theorem all_halt {P : α → Prop} {h : Halt} : (Out.halt h : Out α).All P ↔ True := Iff.rfl

theorem All.mono {P Q : α → Prop} (h : ∀ a, P a → Q a) : ∀ {o : Out α}, o.All P → o.All Q
  | .ok a, ha => h a ha
  | .err a, ha => h a ha
  | .halt _, _ => trivial

theorem all_unwrap {P : α → Prop} {x : Option β} {k : β → Out α} (h : ∀ b, x = some b → (k b).All P) :
    (unwrap x k).All P := by
  cases x with
  | none => trivial
  | some b => exact h b rfl

theorem all_ite {P : α → Prop} {c : Prop} [Decidable c] {o o' : Out α} (h : c → o.All P) (h' : ¬ c → o'.All P) :
    (if c then o else o').All P := by
  split
  · exact h (by assumption)
  · exact h' (by assumption)

theorem all_andThen {P Q : α → Prop} {o : Out α} {k : α → Out α} (ho : o.All P) (hk : ∀ a, P a → (k a).All Q)
    (he : ∀ a, P a → Q a) : (andThen o k).All Q := by
  cases o with
  | ok a => exact hk a ho
  | err a => exact he a ho
  | halt _ => trivial

theorem all_of_state {P : α → Prop} {o : Out α} {a : α} (h : o.All P) (hs : o.state = some a) : P a := by
  cases o with
  | ok b => cases hs; exact h
  | err b => cases hs; exact h
  | halt _ => cases hs

theorem all_iff_state {P : α → Prop} {o : Out α} : o.All P ↔ ∀ a, o.state = some a → P a := by
  cases o with
  | ok b => simp [All, state]
  | err b => simp [All, state]
  | halt _ => simp [All, state]

end Out

/-- Does a text or binary frame of this length fit the payload and buffer limits? -/
def Config.fits (c : Config) (size : Nat) : Bool :=
  decide (size ≤ c.maxPayloadBytes) && decide (size + 10 ≤ c.maxBufferedBytes)

namespace Server

variable [Extern]

def encoded (s : Server) (v : Value) : Option Message :=
  if s.config.fits (Protocol.size v) then some (.text v) else none

def setConnection (s : Server) (cid : Nat) (c : Connection) : Server :=
  { s with connections := s.connections.insert cid c }

def setPlayer (s : Server) (id : String) (p : Player) : Server := { s with players := s.players.insert id p }

def record (s : Server) (es : List Event) : Server := { s with history := s.history ++ es }

def raw (s : Server) (cid : Nat) (msg : Message) : Server :=
  match s.connections.get cid with
  | none => s
  | some c =>
    let s := { s with offered := s.offered ++ [(cid, msg)] }
    if c.closing then s
    else if s.config.maxBufferedBytes < c.queued + msg.cost then
      s.setConnection cid { c with closing := true, abort := true }
    else if c.receiver then
      s.setConnection cid { c with closing := msg.isClose, queued := c.queued + msg.cost, out := c.out ++ [msg] }
    else s.setConnection cid { c with closing := msg.isClose }

def errorData (code : String) : Value :=
  .obj [("method", .str "error"), ("data", .obj [("code", .str code), ("text", .str code)])]

def sendC (s : Server) (cid : Nat) (v : Value) : Server :=
  match (s.encoded v).or (s.encoded (errorData "response_too_large")) with
  | some msg => s.raw cid msg
  | none => s

/-- The current connection of an account. -/
def connectionOf (s : Server) (p : String) : Option Nat := (s.players.get p).bind (·.connection)

def send (s : Server) (p : String) (v : Value) : Server :=
  match s.connectionOf p with
  | some cid => s.sendC cid v
  | none => s

def bytes (s : Server) (p : String) (b : Bytes) : Server :=
  match s.config.fits b.length, s.connectionOf p with
  | true, some cid => s.raw cid (.binary b)
  | _, _ => s

def error (s : Server) (cid : Nat) (code : String) : Server := s.sendC cid (errorData code)

def err (s : Server) (p : String) (code : String) : Server := s.send p (errorData code)

def close (s : Server) (cid : Nat) (code : Nat) (reason : String) : Server := s.raw cid (.close code reason)

/-- Is a member neither excepted nor left out by the target list? -/
def wanted (except : Option String) (targets : Option Value) (id : String) : Bool :=
  !(decide (except = some id) || targets.any (fun a => !a.asArray.any (fun l => decide (Value.str id ∈ l))))

/-- The connection of an account while it is in the room. -/
def memberConnection (s : Server) (room id : String) : Option Nat :=
  ((s.players.get id).filter (fun p => decide (p.room = some room))).bind (·.connection)

def broadcastFrame (s : Server) (r : Room) (msg : Message) (except : Option String) (targets : Option Value) : Server :=
  r.active.items.foldl (fun s id =>
    if wanted except targets id then
      match s.memberConnection r.id id with
      | some c => s.raw c msg
      | none => s
    else s) s

def broadcast (s : Server) (r : Room) (v : Value) (except : Option String) (targets : Option Value) : Server :=
  match s.encoded v with
  | some msg => s.broadcastFrame r msg except targets
  | none => s

def lobby (s : Server) (v : Value) : Server :=
  match s.encoded v with
  | some msg =>
    (s.players.values.filter (fun p => p.room.isNone)).foldl (fun s p =>
      match p.connection with
      | some c => s.raw c msg
      | none => s) s
  | none => s

def dto (s : Server) (r : Room) : Value := r.dto ((s.players.get r.owner).bind (·.rtt))

/-- A page of the room listing. -/
def onGetRooms (data : List Value) (next : Value) : Value :=
  .obj [("method", .str "onGetRooms"), ("data", .arr data), ("nextCursor", next)]

def roomFits (s : Server) (r : Room) : Bool :=
  if s.config.fits (r.max * (r.owner.utf8ByteSize + 3) + 1) = false then false
  else
    let dto := (((s.dto r).set "players" (strs (List.replicate r.max r.owner))).set "rtt" (ofNat maxSafe)).set
      "gameStarted" (.bool false)
    (s.encoded (onGetRooms [dto] (.str r.id))).isSome

def relay (s : Server) (p : String) (v : Value) : Server × Option Message :=
  match s.encoded v with
  | some m => (s, some m)
  | none => (s.err p "payload_too_large", none)

def reply (s : Server) (p : String) (request : Value) (data : Value) : Server :=
  s.send p (.obj [("method", .str "sessionReply"), ("data", data.set "requestId" request)])

/-! The core is out of reach of every sending function. -/

@[simp] theorem raw_toCore (s : Server) (cid : Nat) (msg : Message) : (s.raw cid msg).toCore = s.toCore := by
  unfold raw
  split
  · rfl
  · dsimp only
    split
    · rfl
    · split
      · rfl
      · split <;> rfl

@[simp] theorem sendC_toCore (s : Server) (cid : Nat) (v : Value) : (s.sendC cid v).toCore = s.toCore := by
  unfold sendC
  split
  · exact raw_toCore s cid _
  · rfl

@[simp] theorem send_toCore (s : Server) (p : String) (v : Value) : (s.send p v).toCore = s.toCore := by
  unfold send
  split
  · exact sendC_toCore s _ v
  · rfl

@[simp] theorem bytes_toCore (s : Server) (p : String) (b : Bytes) : (s.bytes p b).toCore = s.toCore := by
  unfold bytes
  split
  · exact raw_toCore s _ _
  · rfl

@[simp] theorem error_toCore (s : Server) (cid : Nat) (code : String) : (s.error cid code).toCore = s.toCore :=
  sendC_toCore s cid _

@[simp] theorem err_toCore (s : Server) (p code : String) : (s.err p code).toCore = s.toCore := send_toCore s p _

@[simp] theorem close_toCore (s : Server) (cid code : Nat) (reason : String) :
    (s.close cid code reason).toCore = s.toCore := raw_toCore s cid _

omit [Extern] in
theorem foldl_toCore {α : Type} (f : Server → α → Server) (hf : ∀ s a, (f s a).toCore = s.toCore) :
    ∀ (l : List α) (s : Server), (l.foldl f s).toCore = s.toCore
  | [], _ => rfl
  | a :: l, s => by rw [List.foldl_cons, foldl_toCore f hf l (f s a), hf]

@[simp] theorem broadcastFrame_toCore (s : Server) (r : Room) (msg : Message) (except : Option String)
    (targets : Option Value) : (s.broadcastFrame r msg except targets).toCore = s.toCore := by
  refine foldl_toCore _ (fun s id => ?_) _ s
  split
  · split
    · exact raw_toCore s _ msg
    · rfl
  · rfl

@[simp] theorem broadcast_toCore (s : Server) (r : Room) (v : Value) (except : Option String)
    (targets : Option Value) : (s.broadcast r v except targets).toCore = s.toCore := by
  unfold broadcast
  split
  · exact broadcastFrame_toCore s r _ except targets
  · rfl

@[simp] theorem lobby_toCore (s : Server) (v : Value) : (s.lobby v).toCore = s.toCore := by
  unfold lobby
  split
  · refine foldl_toCore _ (fun s p => ?_) _ s
    split
    · exact raw_toCore s _ _
    · rfl
  · rfl

@[simp] theorem relay_toCore (s : Server) (p : String) (v : Value) : (s.relay p v).1.toCore = s.toCore := by
  unfold relay
  split
  · rfl
  · exact err_toCore s p _

@[simp] theorem reply_toCore (s : Server) (p : String) (request data : Value) :
    (s.reply p request data).toCore = s.toCore := send_toCore s p _

end Server
end Relay
