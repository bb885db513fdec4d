import GameRelay.Receive
/-!
# Datagram — incoming datagrams (`udp.rs`)

`datagram` is `datagram_at`: its checks in order (`shaped`, `bearer`, `authentic`, the replay window, the budget), then
one definition a packet kind.  `Reply.events` is a history: what the datagram did to its session.
-/
namespace Relay

namespace Udp

/-- Accept a sequence number the window has not seen; the bits are a 64-bit word. -/
def Replay.accept (r : Replay) (sequence : Nat) : Option Replay :=
  if sequence = 0 then none
  else if r.highest < sequence then
    let shift := sequence - r.highest
    some ⟨sequence, if 64 ≤ shift then 1 else (r.bits <<< shift) % 2 ^ 64 ||| 1⟩
  else
    let distance := r.highest - sequence
    if 64 ≤ distance ∨ r.bits.testBit distance = true then none
    else some { r with bits := r.bits ||| 2 ^ distance }

/-- Count one packet of the current second; is it within the limit? -/
def Rate.accept (r : Rate) (t limit : Nat) : Rate × Bool :=
  let r := if 1000 ≤ t - r.time then ⟨t, 0⟩ else r
  if limit ≤ r.count then (r, false) else ({ r with count := r.count + 1 }, true)

/-- `u64::to_be_bytes`. -/
def u64Bytes (n : Nat) : Bytes := u32Bytes (n / 2 ^ 32) ++ u32Bytes n

/-- `b"NLU1"`. -/
def magic : Bytes := [78, 76, 85, 49]

def nilAddress : Bytes := List.replicate 16 0

def encode [Extern] (secret : Bytes) (kind : UInt8) (cid sequence : Nat) (address payload : Bytes) : Bytes :=
  let bytes := magic ++ kind :: (u64Bytes cid ++ u64Bytes sequence ++ address ++ payload)
  bytes ++ Extern.hmacSha256 secret bytes

/-- Number and sign a packet; none once the 64-bit counter is spent. -/
def Session.packet [Extern] (u : Session) (cid : Nat) (kind : UInt8) (sender payload : Bytes) : Option (Session × Bytes) :=
  if u.outgoing + 1 < 2 ^ 64 then
    some ({ u with outgoing := u.outgoing + 1 }, encode u.secret kind cid (u.outgoing + 1) sender payload)
  else none

/-! The parts of a datagram: 37 bytes of header, the payload, a tag of 32 bytes. -/

def kindOf (b : Bytes) : UInt8 := b[4]?.getD 0

def connectionOf (b : Bytes) : Nat := bigEndian ((b.drop 5).take 8)

def sequenceOf (b : Bytes) : Nat := bigEndian ((b.drop 13).take 8)

def targetOf (b : Bytes) : Bytes := (b.drop 21).take 16

def payloadOf (b : Bytes) : Bytes := (b.drop 37).take (b.length - 69)

def bodyOf (b : Bytes) : Bytes := b.take (b.length - 32)

def tagOf (b : Bytes) : Bytes := b.drop (b.length - 32)

def shaped (c : Config) (b : Bytes) : Bool :=
  decide (69 ≤ b.length ∧ b.length ≤ c.udpMaxDatagramBytes) && decide (b.take 4 = magic) && decide (kindOf b ≤ 2) &&
    (if kindOf b = 2 then !(payloadOf b).isEmpty else decide ((payloadOf b).length = 16)) &&
    (decide (kindOf b = 2) || decide (targetOf b = nilAddress))

def authentic [Extern] (secret b : Bytes) : Bool := decide (Extern.hmacSha256 secret (bodyOf b) = tagOf b)

/-- What a datagram did to a session, named by its connection and key. -/
inductive Event where
  | opened (cid : Nat) (key : Bytes)
  /-- The window accepted the sequence number. -/
  | spent (cid : Nat) (key : Bytes) (sequence : Nat)
  | challenged (cid : Nat) (key : Bytes) (source : String) (challenge : Bytes) (time : Nat)
  | proven (cid : Nat) (key : Bytes) (source : String) (challenge : Bytes) (time : Nat)
  | refreshed (cid : Nat) (key : Bytes) (source : String) (time : Nat)
  deriving DecidableEq

end Udp

open Udp

structure Reply where
  server : Server
  packets : List (String × Bytes)
  events : List Udp.Event

namespace Server

/-- The connection a datagram names with its account, room and current session, when all of them fit together. -/
def bearer (s : Server) (cid : Nat) : Option (Connection × Player × Room × Udp.Session) :=
  ((s.connections.get cid).filter (fun c => !c.closing)).bind fun c =>
  ((c.player.bind s.players.get).filter (fun p => decide (p.connection = some cid))).bind fun p =>
  ((p.room.bind s.rooms.get).filter (fun r => r.active.contains p.id)).bind fun r =>
  (c.udp.filter (fun u => decide (u.version = p.version))).map fun u => (c, p, r, u)

variable [Extern]

/-- Answer a handshake with a packet to its source, within the outgoing budget. -/
def answer (s : Server) (cid : Nat) (c : Connection) (u : Udp.Session) (source : String) (t : Nat) (kind : UInt8)
    (payload : Bytes) : Server × List (String × Bytes) :=
  let rate := c.udpOutgoingRate.accept t s.config.udpOutgoingPacketsPerSecond
  match if rate.2 then u.packet cid kind nilAddress payload else none with
  | some (u, packet) => (s.setConnection cid { c with udp := some u, udpOutgoingRate := rate.1 }, [(source, packet)])
  | none => (s.setConnection cid { c with udp := some u, udpOutgoingRate := rate.1 }, [])

/-- Kind 0: draw a challenge for the source. -/
def hello (s : Server) (cid : Nat) (c : Connection) (u : Udp.Session) (source : String) (t : Nat) (challenge : Bytes) : Reply :=
  let sp := s.answer cid c { u with challenge := some (source, challenge, t) } source t 3 challenge
  ⟨sp.1, sp.2, [.challenged cid u.secret source challenge t]⟩

/-- Is this the pending challenge of this source, in time? -/
def proves (u : Udp.Session) (source : String) (t ttl : Nat) (payload : Bytes) : Bool :=
  u.challenge.any (fun x => decide (x.1 = source ∧ t - x.2.2 ≤ ttl ∧ payload = x.2.1))

/-- Kind 1: prove the source by the challenge sent to it. -/
def confirm (s : Server) (cid : Nat) (c : Connection) (u : Udp.Session) (source : String) (t : Nat) (payload : Bytes) : Reply :=
  if proves u source t s.config.udpChallengeTtlMs payload then
    let sp := s.answer cid c { u with challenge := none, endpoint := some (source, t) } source t 4 payload
    ⟨sp.1, sp.2, [.proven cid u.secret source payload t]⟩
  else ⟨s.setConnection cid { c with udp := some u }, [], []⟩

/-- The connections a game packet goes to, each with its account's membership version. -/
def recipients (s : Server) (p : Player) (r : Room) (target : Bytes) : List (Nat × Nat) :=
  ((r.active.items.filter (fun id => decide (id ≠ p.id) && (decide (target = nilAddress) || decide (id = uuidText target)))
    ).filterMap s.players.get).filterMap (fun p => p.connection.map (fun cid => (cid, p.version)))

/-- The endpoint a session can be reached at, if it was refreshed in time. -/
def reachable (u : Udp.Session) (t ttl : Nat) : Option String :=
  (u.endpoint.filter (fun x => decide (t - x.2 ≤ ttl))).map (·.1)

/-- Send a game packet to one recipient. -/
def deliver (t : Nat) (sender payload : Bytes) (x : Server × List (String × Bytes)) (recipient : Nat × Nat) :
    Server × List (String × Bytes) :=
  match (x.1.connections.get recipient.1).filter (fun c => !c.closing) with
  | none => x
  | some c =>
    match c.udp.filter (fun u => decide (u.version = recipient.2)) with
    | none => x
    | some u =>
      match reachable u t x.1.config.udpEndpointTtlMs with
      | none => x
      | some address =>
        let rate := c.udpOutgoingRate.accept t x.1.config.udpOutgoingPacketsPerSecond
        match if rate.2 then u.packet recipient.1 5 sender payload else none with
        | some (u, packet) => (x.1.setConnection recipient.1 { c with udp := some u, udpOutgoingRate := rate.1 },
            x.2 ++ [(address, packet)])
        | none => (x.1.setConnection recipient.1 { c with udpOutgoingRate := rate.1 }, x.2)

/-- Kind 2: relay a game packet of a proven endpoint. -/
def relayPacket (s : Server) (cid : Nat) (c : Connection) (p : Player) (r : Room) (u : Udp.Session) (source : String)
    (t : Nat) (target payload : Bytes) : Out Reply :=
  if u.endpoint.any (fun x => decide (x.1 = source ∧ t - x.2 ≤ s.config.udpEndpointTtlMs)) then
    Out.unwrap (parseUuid p.id) fun sender =>
    let s := s.setConnection cid { c with udp := some { u with endpoint := some (source, t) } }
    let sp := (s.recipients p r target).foldl (deliver t sender payload) (s, [])
    .ok ⟨sp.1, sp.2, [.refreshed cid u.secret source t]⟩
  else .ok ⟨s.setConnection cid { c with udp := some u }, [], []⟩

/-- A datagram at time `t`; `challenge` is what it draws. -/
def datagram (s : Server) (b : Bytes) (source : String) (t : Nat) (challenge : Bytes) : Out Reply :=
  if shaped s.config b = false then .ok ⟨s, [], []⟩
  else
    let cid := Udp.connectionOf b
    match s.bearer cid with
    | none => .ok ⟨s, [], []⟩
    | some (c, p, r, u) =>
      if authentic u.secret b = false then .ok ⟨s, [], []⟩
      else match u.replay.accept (sequenceOf b) with
        | none => .ok ⟨s, [], []⟩
        | some replay =>
          let u := { u with replay := replay }
          let rate := c.udpIncomingRate.accept t s.config.udpIncomingPacketsPerSecond
          let c := { c with udp := some u, udpIncomingRate := rate.1 }
          mapOut (fun x => { x with events := .spent cid u.secret (sequenceOf b) :: x.events })
            (if rate.2 = false then .ok ⟨s.setConnection cid c, [], []⟩
            else if kindOf b = 0 then .ok (s.hello cid c u source t challenge)
            else if kindOf b = 1 then .ok (s.confirm cid c u source t (payloadOf b))
            else s.relayPacket cid c p r u source t (targetOf b) (payloadOf b))

end Server
end Relay
