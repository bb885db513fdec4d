import GameRelay.Steps
/-!
# Trace — executing a list of commands

`exec` runs commands one after the other, so that a run on given inputs can be evaluated.  The rest of the module is a
small setting for such runs: the default settings, numbered identifiers, and an `Extern` that reads the texts of given
values.
-/
namespace Relay

/-- The state left behind by `Ok` alone. -/
def Out.result {α : Type} : Out α → Option α
  | .ok a => some a
  | .err _ | .halt _ => none

theorem Out.result_eq_some {α : Type} {o : Out α} {a : α} : o.result = some a ↔ o = .ok a := by
  cases o <;> simp [result]

namespace Server

variable [Extern]

/-- Execute commands, each of which must pass the check `ok` in the state it finds. -/
def exec (ok : Env → Server → Command → Bool) : List (Env × Command) → Server → Option Server
  | [], s => some s
  | (env, c) :: l, s => if ok env s c then (s.step env c).bind (exec ok l) else none

/-- **Commands executed one after the other are a run**, of whatever the check ensures. -/
theorem exec_run {ok : Env → Server → Command → Bool} {G : Env → Server → Command → Prop}
    (hok : ∀ env s c, ok env s c = true → G env s c) : ∀ {l : List (Env × Command)} {s t : Server},
    exec ok l s = some t → Run G s t
  | [], s, t, h => by cases h; exact .refl
  | (env, c) :: l, s, t, h => by
    rw [exec] at h
    split at h
    · rename_i hc
      obtain ⟨u, hu, h⟩ := Option.bind_eq_some_iff.1 h
      exact .head ⟨env, c, hok env s c hc, hu⟩ (exec_run hok h)
    · cases h

end Server

/-- The settings of an empty environment. -/
def Config.default : Config where
  sendDelayMs := 0
  udpEnabled := false
  udpPort := 8080
  udpMaxDatagramBytes := 1200
  udpIncomingPacketsPerSecond := 120
  udpOutgoingPacketsPerSecond := 120
  udpEndpointTtlMs := 60000
  udpChallengeTtlMs := 5000
  maxPayloadBytes := 65536
  maxBufferedBytes := 262144
  maxAccounts := 1024
  maxRooms := 128
  maxRoomPlayers := 16
  maxMessagesPerSecond := 120
  accountTtlMs := 300000
  heartbeatIntervalMs := 10000
  idleTimeoutMs := 50000
  authTimeoutMs := 5000
  sessionDirectory := "./sessions"
  sessionMaxBytes := 1073741824
  maxSessionBytes := 16777216
  moderationSigningKey := ""

theorem Config.default_admitted : Config.default.Admitted := ⟨fun _ => none, [], by decide⟩

/-- An empty store in a session directory. -/
def Store.empty : Store where
  enabled := true
  max := 1073741824
  rooms := IndexMap.empty
  accounts := IndexMap.empty
  notifications := IndexMap.empty
  jobs := IndexMap.empty
  ops := 0

/-- The identifier whose last byte is `k`. -/
def UuidV4.numbered (k : UInt8) : UuidV4 where
  bytes := [171, 205, 239, 1, 35, 69, 64, 0, 128, 0, 0, 0, 0, 0, 0, k]
  length_eq := rfl
  version := by simp
  variant := by simp

/-- A step at `now` in which every file operation succeeds. -/
def Env.plain (now : Nat) : Env where
  now := now
  uuid := fun n => .numbered (UInt8.ofNat n)
  secret := fun n => "secret-" ++ Nat.repr n
  key := fun n => [UInt8.ofNat n]
  io := fun _ => true

/-- The text of a value whose numbers are integers. -/
def plainText (v : Value) : String :=
  Json.text (fun | .pos n => Nat.repr n | .neg n => "-" ++ Nat.repr n | .float _ _ => "0") v

/-- Reads the texts of these values. -/
@[reducible] def Extern.reading (values : List Value) : Extern where
  fromStr := fun s => values.find? (fun v => decide (plainText v = s))
  toVec := fun v => (plainText v).toUTF8.toList
  ryuJs := fun _ => "0"
  base64 := fun _ => ""
  base64Url := fun _ => ""
  hmacSha256 := fun _ _ => []

def message (method : String) (data : List (String × Value)) : Value :=
  .obj [("method", .str method), ("data", .obj data)]

/-- The connection sends this message. -/
def Command.tells (cid : Nat) (v : Value) : Command := .receive cid (.text (plainText v))

def Command.isSweep : Command → Bool
  | .sweep => true
  | _ => false

/-- A step at `now` in which every file operation fails. -/
def Env.failing (now : Nat) : Env := { Env.plain now with io := fun _ => false }

/-! A small vocabulary: the first account is number 0, its room number 1, its guest number 2. -/
namespace Trace

def account : String := (UuidV4.numbered 0).text

def room : String := (UuidV4.numbered 1).text

def guest : String := (UuidV4.numbered 2).text

def request : UuidV4 := .numbered 255

def signUp : Value := message "authenticate" []

def createRoom : Value := message "createRoom" [("name", .str "a"), ("maxPlayers", .ofNat 2)]

/-- Start a persistent game. -/
def startGame : Value := message "startGame"
  [("fixedRoster", .bool true), ("hostMigration", .bool true), ("persistent", .bool true)]

def enterRoom : Value := message "enterRoom" [("roomId", .str room)]

def leaveRoom : Value := .obj [("method", .str "leaveRoom"), ("data", .null)]

def beginSession (size : Nat) : Value := message "beginSession"
  [("requestId", .str request.text), ("revision", .ofNat 0), ("generation", .ofNat 0), ("size", .ofNat size)]

/-- A chunk at the start of the upload. -/
def chunk (payload : Bytes) : Frame := .binary (2 :: (request.bytes ++ [0, 0, 0, 0] ++ payload))

def commitSession : Value := message "commitSession"
  [("requestId", .str request.text), ("scheduled", .null), ("immediate", .null)]

/-- The first account opens its room. -/
def opening : List (Env × Command) :=
  [(.plain 1, .connected 1), (.plain 1, .tells 1 signUp), (.plain 1, .tells 1 createRoom)]

/-- A second account enters it. -/
def shared : List (Env × Command) := opening ++
  [(.plain 1, .connected 2), (.plain 1, .tells 2 signUp), (.plain 1, .tells 2 enterRoom)]

/-- The first account leaves it. -/
def handed : List (Env × Command) := shared ++ [(.plain 1, .tells 1 leaveRoom)]

/-- It starts a persistent game. -/
def started : List (Env × Command) := opening ++ [(.plain 1, .tells 1 startGame)]

/-- It saves the state `[7]`. -/
def saved : List (Env × Command) := started ++
  [(.plain 1, .tells 1 (beginSession 1)), (.plain 1, .receive 1 (chunk [7])), (.plain 1, .tells 1 commitSession)]

end Trace
end Relay
