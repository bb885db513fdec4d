import Mathlib
import GameRelay.Json
import GameRelay.Uuid
/-!
# Protocol — parsing, text and validation of messages (`protocol.rs`)

`Extern` is what the server takes from third-party libraries: reading JSON text, writing it, the ECMAScript spelling of
numbers, Base64 and HMAC.  Everything the source does around them is defined here.
-/
namespace Relay

class Extern where
  /-- `serde_json::from_str`. -/
  fromStr : String → Option Value
  /-- `serde_json::to_vec`. -/
  toVec : Value → Bytes
  /-- `ryu_js`, asked only for numbers that are not small non-negative integers. -/
  ryuJs : Number → String
  base64 : Bytes → String
  base64Url : Bytes → String
  hmacSha256 : Bytes → Bytes → Bytes

/-- `Number.MAX_SAFE_INTEGER`. -/
def maxSafe : Nat := 9007199254740991

/-- The nearest double of a natural number, ties to even. -/
def round64 (n : Nat) : Nat :=
  if n < 2 ^ 53 then n else
    let e := Nat.log2 n - 52
    let q := n / 2 ^ e
    let r := n % 2 ^ e
    (if 2 ^ (e - 1) < r ∨ (r = 2 ^ (e - 1) ∧ q % 2 = 1) then q + 1 else q) * 2 ^ e

/-- The integer a number is as a double, if it is one. -/
def Number.toInt? : Number → Option Int
  | .pos n => some (round64 n)
  | .neg n => some (-(round64 n : Int))
  | .float m e =>
    if 0 ≤ e then some (m * 2 ^ e.toNat)
    else if m % 2 ^ (-e).toNat = 0 then some (m / 2 ^ (-e).toNat) else none

namespace Protocol

def normalizeNumber (n : Number) : Number :=
  match n.toInt? with
  | some z =>
    if 0 ≤ z ∧ z < 2 ^ 64 then .pos z.toNat
    else if -2 ^ 63 ≤ z ∧ z < 0 then .neg (-z).toNat
    else .float z 0
  | none => n

mutual

def normalize : Value → Value
  | .num n => .num (normalizeNumber n)
  | .arr items => .arr (normalizeItems items)
  | .obj fields => .obj (normalizeFields fields)
  | .null => .null
  | .bool b => .bool b
  | .str s => .str s

def normalizeItems : List Value → List Value
  | [] => []
  | v :: vs => normalize v :: normalizeItems vs

def normalizeFields : List (String × Value) → List (String × Value)
  | [] => []
  | (k, v) :: fs => (k, normalize v) :: normalizeFields fs

end

def parse [Extern] (text : String) : Option Value := (Extern.fromStr text).map normalize

/-- ECMAScript's spelling of a number; a safe non-negative integer is its decimal digits. -/
def numText [Extern] : Number → String
  | .pos n => if n ≤ maxSafe then Nat.repr n else Extern.ryuJs (.pos n)
  | n => Extern.ryuJs n

def stringify [Extern] (v : Value) : String := Json.text numText v

/-- The length of `stringify v` in bytes. -/
def size [Extern] (v : Value) : Nat := (stringify v).utf8ByteSize

theorem size_eq [Extern] (v : Value) : size v = Json.textSize numText v := Json.utf8ByteSize_text numText v

def uuid (v : Value) : Bool := v.asStr.any isUuid

/-- Length in UTF-16 code units. -/
def len (cs : List Char) : Nat := (cs.map (fun c => if c.toNat < 65536 then 1 else 2)).sum

def jsWhitespace (c : Char) : Bool :=
  let n := c.toNat
  (9 ≤ n && n ≤ 13) || n == 32 || n == 0xa0 || n == 0x1680 || (0x2000 ≤ n && n ≤ 0x200a) || n == 0x2028 ||
    n == 0x2029 || n == 0x202f || n == 0x205f || n == 0x3000 || n == 0xfeff

def trimChars (cs : List Char) : List Char :=
  ((cs.dropWhile jsWhitespace).reverse.dropWhile jsWhitespace).reverse

def string (v : Value) (min max : Nat) (trim : Bool) : Bool :=
  v.asStr.any (fun s =>
    decide (len s.toList ≤ max) && decide (min ≤ len (if trim then trimChars s.toList else s.toList)))

def optional (v : Value) (k : String) (f : Value → Bool) : Bool := (v.get k).all f

def password (v : Value) : Bool := v.isNull || string v 0 128 false

def integer : Value → Bool
  | .num n => n.toInt?.any (fun z : Int => decide (0 ≤ z ∧ z ≤ maxSafe))
  | _ => false

def ids (v : Value) (max : Nat) (unique : Bool) : Bool :=
  v.asArray.any (fun a => decide (a.length ≤ max) && a.all uuid && (!unique || decide a.Nodup))

def isLower (c : Char) : Bool := decide ('a' ≤ c ∧ c ≤ 'z')

def isAlnum (c : Char) : Bool :=
  decide ('0' ≤ c ∧ c ≤ '9') || decide ('A' ≤ c ∧ c ≤ 'Z') || isLower c

/-- `^[a-z]{2,3}(?:-[A-Za-z0-9]{2,8}){0,2}$` -/
def lang (s : String) : Bool :=
  match s.toList.splitOn '-' with
  | [] => false
  | p :: ps =>
    decide (2 ≤ p.length ∧ p.length ≤ 3) && p.all isLower && decide (ps.length ≤ 2) &&
      ps.all (fun q => decide (2 ≤ q.length ∧ q.length ≤ 8) && q.all isAlnum)

/-- `^[A-Za-z0-9_.:\-]{1,128}$` -/
def event (s : String) : Bool :=
  decide (1 ≤ s.toList.length ∧ s.toList.length ≤ 128) &&
    s.toList.all (fun c => isAlnum c || decide (c ∈ ['_', '.', ':', '-']))

/-- `^[A-Za-z0-9_:\-]{20,4096}$` -/
def token (s : String) : Bool :=
  decide (20 ≤ s.toList.length ∧ s.toList.length ≤ 4096) &&
    s.toList.all (fun c => isAlnum c || decide (c ∈ ['_', ':', '-']))

def translations : Value → Bool
  | .obj m => decide (m.length ≤ 20) && m.all (fun f =>
      lang f.1 && string (f.2.idx "title") 1 100 true && string (f.2.idx "body") 1 500 true)
  | _ => false

def notice (v : Value) : Bool :=
  v.isNull ||
    (v.isObject && (v.idx "eventId").asStr.any event && integer (v.idx "at") && ids (v.idx "to") 64 false &&
      string (v.idx "title") 1 100 false && string (v.idx "body") 1 500 false &&
      optional v "translations" translations)

mutual

def bounded : Value → Nat → Bool
  | .arr items, d => decide (d ≤ 32) && boundedItems items (d + 1)
  | .obj fields, d => decide (d ≤ 32) && boundedFields fields (d + 1)
  | .null, d => decide (d ≤ 32)
  | .bool _, d => decide (d ≤ 32)
  | .num _, d => decide (d ≤ 32)
  | .str _, d => decide (d ≤ 32)

def boundedItems : List Value → Nat → Bool
  | [], _ => true
  | v :: vs, d => bounded v d && boundedItems vs d

def boundedFields : List (String × Value) → Nat → Bool
  | [], _ => true
  | (_, v) :: fs, d => bounded v d && boundedFields fs d

end

def name (v : Value) : Bool := string v 1 64 true

/-- An integer between 1 and the room capacity limit. -/
def cap (roomMax : Nat) : Value → Bool
  | .num n => integer (.num n) && n.toInt?.any (fun z : Int => decide (1 ≤ z ∧ z ≤ roomMax))
  | _ => false

def positive : Value → Bool
  | .num n => n.toInt?.any (fun z : Int => decide (0 < z))
  | _ => false

/-- The shape of a method's `data`. -/
def validData (v d : Value) (roomMax accounts : Nat) (method : String) : Bool :=
  let obj := d.isObject
  match method with
  | "getModerationTicket" => obj && uuid (d.idx "requestId") && uuid (d.idx "target") && uuid (d.idx "room")
  | "getSavedRooms" => obj && ids (d.idx "ids") 20 false
  | "getSession" => obj && uuid (d.idx "requestId")
  | "getSessionChunk" => obj && uuid (d.idx "requestId") && integer (d.idx "revision") && integer (d.idx "offset")
  | "beginSession" =>
    obj && uuid (d.idx "requestId") && integer (d.idx "revision") && integer (d.idx "generation") &&
      integer (d.idx "size") && positive (d.idx "size")
  | "commitSession" =>
    obj && uuid (d.idx "requestId") && (d.get "scheduled").any notice && (d.get "immediate").any notice
  | "authenticate" =>
    obj && optional d "name" name && optional d "playerId" uuid &&
      optional d "password" (fun v => string v 0 128 false)
  | "Pong" => d.isNumber
  | "setPushDevice" =>
    obj && uuid (d.idx "deviceId") && optional d "language" (fun v => v.asStr.any lang) &&
      (d.idx "foreground").isBoolean && (d.get "token").isSome &&
      ((d.idx "token").isNull || (d.idx "token").asStr.any token)
  | "notifyPlayers" =>
    obj && ids (d.idx "to") accounts true && !((d.idx "to").asArray.any List.isEmpty) &&
      (d.idx "eventId").asStr.any event && string (d.idx "title") 1 100 true && string (d.idx "body") 1 500 true &&
      optional d "translations" translations
  | "getRooms" => d.isNull || (obj && optional d "after" uuid)
  | "leaveRoom" | "requestGameState" | "openUdp" | "closeUdp" => d.isNull
  | "getPlayers" => d.isNull || ids d accounts true
  | "changeName" => name d
  | "sendChatMsg" => string d 0 2048 false
  | "enterRoom" => obj && uuid (d.idx "roomId") && password (d.idx "password")
  | "createRoom" =>
    obj && optional d "binaryRelay" Value.isBoolean && name (d.idx "name") && cap roomMax (d.idx "maxPlayers") &&
      password (d.idx "password")
  | "updateRoom" =>
    obj && ["name", "maxPlayers", "password", "joinClosed"].any (fun k => (d.get k).isSome) &&
      optional d "joinClosed" Value.isBoolean && optional d "name" name && optional d "maxPlayers" (cap roomMax) &&
      password (d.idx "password")
  | "shareGameState" => obj && (d.get "gamestate").isSome && optional d "to" (fun v => ids v accounts true)
  | "sendTo" => obj && ids (d.idx "to") accounts true && (d.get "msg").isSome
  | "startGame" | "sendToRoom" | "setRoomMeta" => (v.get "data").isSome
  | _ => false

def validate (v : Value) (roomMax accounts : Nat) : Bool :=
  v.isObject && bounded v 0 &&
    validData v (v.idx "data") roomMax accounts (((v.idx "method").asStr).getD "")

theorem uuid_asStr {v : Value} (h : uuid v = true) : ∃ s, v.asStr = some s ∧ isUuid s = true := by
  unfold uuid at h
  cases hv : v.asStr with
  | none => rw [hv] at h; cases h
  | some s => rw [hv] at h; exact ⟨s, rfl, h⟩

theorem validate_data {v : Value} {roomMax accounts : Nat} {m : String} (h : validate v roomMax accounts = true)
    (hm : (v.idx "method").asStr = some m) : validData v (v.idx "data") roomMax accounts m = true := by
  unfold validate at h
  rw [hm, Bool.and_eq_true] at h
  exact h.2

theorem validate_method {v : Value} {roomMax accounts : Nat} (h : validate v roomMax accounts = true) :
    ∃ m, (v.idx "method").asStr = some m := by
  cases hm : (v.idx "method").asStr with
  | some m => exact ⟨m, rfl⟩
  | none =>
    unfold validate at h
    rw [hm, Bool.and_eq_true] at h
    exact absurd h.2 (by simp [validData])

/-- An admitted capacity is positive. -/
theorem cap_pos {roomMax n : Nat} {v : Value} (h : cap roomMax v = true) (hn : v.asU64 = some n) : 1 ≤ n := by
  rw [Value.asU64_eq_some] at hn
  subst hn
  simp only [cap, Value.ofNat, Bool.and_eq_true, Number.toInt?, Option.any_some, decide_eq_true_eq] at h
  by_contra hz
  obtain rfl : n = 0 := by omega
  exact absurd h.2.1 (by decide)

theorem createRoom_max {v : Value} {roomMax accounts n : Nat} (h : validate v roomMax accounts = true)
    (hm : (v.idx "method").asStr = some "createRoom") (hn : ((v.idx "data").idx "maxPlayers").asU64 = some n) :
    1 ≤ n := by
  have hd := validate_data h hm
  simp only [validData, Bool.and_eq_true] at hd
  exact cap_pos hd.1.2 hn

end Protocol
end Relay
