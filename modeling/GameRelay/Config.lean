import GameRelay.Protocol
/-!
# Config — the settings and their loader (`config.rs`)

Only the settings a modelled function reads are fields; the loader's checks of the others can only refuse more.
-/
namespace Relay

structure Config where
  sendDelayMs : Nat
  udpEnabled : Bool
  udpPort : Nat
  udpMaxDatagramBytes : Nat
  udpIncomingPacketsPerSecond : Nat
  udpOutgoingPacketsPerSecond : Nat
  udpEndpointTtlMs : Nat
  udpChallengeTtlMs : Nat
  maxPayloadBytes : Nat
  maxBufferedBytes : Nat
  maxAccounts : Nat
  maxRooms : Nat
  maxRoomPlayers : Nat
  maxMessagesPerSecond : Nat
  accountTtlMs : Nat
  heartbeatIntervalMs : Nat
  idleTimeoutMs : Nat
  authTimeoutMs : Nat
  sessionDirectory : String
  sessionMaxBytes : Nat
  maxSessionBytes : Nat
  moderationSigningKey : String
  deriving DecidableEq

namespace Config

/-- `maxPayloadBytes` is read from `MAX_PAYLOAD_BYTES`. -/
def envKey (k : String) : String :=
  String.ofList (k.toList.flatMap (fun c => if c.isUpper then ['_', c] else [c.toUpper]))

def digits (s : String) : Option Nat :=
  if s.isEmpty || !s.toList.all Char.isDigit then none
  else some (s.toList.foldl (fun n c => 10 * n + (c.toNat - 48)) 0)

def settingMax (k : String) : Nat :=
  if k = "port" ∨ k = "udpPort" then 65535
  else if k ∈ ["logMaxBytes", "logFileMaxBytes", "sessionMaxBytes"] then maxSafe
  else 2147483647

/-- A numeric setting: decimal digits within its bound, and zero only for ports and the delay. -/
def number (env : String → Option String) (k : String) (dflt : Nat) : Option Nat :=
  match env (envKey k) with
  | none => some dflt
  | some s =>
    match digits s with
    | none => none
    | some n =>
      if settingMax k < n ∨ (n = 0 ∧ k ∉ ["port", "udpPort", "sendDelayMs"]) then none else some n

def boolean (env : String → Option String) (k : String) (dflt : Bool) : Option Bool :=
  match env (envKey k) with
  | none => some dflt
  | some s => if s = "true" then some true else if s = "false" then some false else none

def signingKeyOk (s : String) : Bool :=
  s.isEmpty || (decide (32 ≤ s.toList.length ∧ s.toList.length ≤ 128) &&
    s.toList.all (fun c => Protocol.isAlnum c || decide (c ∈ ['_', '-'])))

/-- The `delay=` argument, the last one winning. -/
def delayArgs : List String → Nat → Option Nat
  | [], n => some n
  | a :: as, n =>
    if "delay=".toList.isPrefixOf a.toList then
      match digits (String.ofList (a.toList.drop 6)) with
      | none => none
      | some d => if 2147483647 < d then none else delayArgs as d
    else delayArgs as n

def load (env : String → Option String) (args : List String) : Option Config := do
  let sendDelayMs ← number env "sendDelayMs" 0
  let udpEnabled ← boolean env "udpEnabled" false
  let udpPort ← number env "udpPort" 8080
  let udpMaxDatagramBytes ← number env "udpMaxDatagramBytes" 1200
  let udpIncoming ← number env "udpIncomingPacketsPerSecond" 120
  let udpOutgoing ← number env "udpOutgoingPacketsPerSecond" 120
  let udpEndpointTtlMs ← number env "udpEndpointTtlMs" 60000
  let udpChallengeTtlMs ← number env "udpChallengeTtlMs" 5000
  let maxPayloadBytes ← number env "maxPayloadBytes" 65536
  let maxBufferedBytes ← number env "maxBufferedBytes" 262144
  let maxAccounts ← number env "maxAccounts" 1024
  let maxRooms ← number env "maxRooms" 128
  let maxRoomPlayers ← number env "maxRoomPlayers" 16
  let maxMessagesPerSecond ← number env "maxMessagesPerSecond" 120
  let accountTtlMs ← number env "accountTtlMs" 300000
  let heartbeatIntervalMs ← number env "heartbeatIntervalMs" 10000
  let idleTimeoutMs ← number env "idleTimeoutMs" 50000
  let authTimeoutMs ← number env "authTimeoutMs" 5000
  let sessionMaxBytes ← number env "sessionMaxBytes" 1073741824
  let maxSessionBytes ← number env "maxSessionBytes" 16777216
  -- existing installations shared one message quota
  let udpIncoming := if (env "UDP_INCOMING_PACKETS_PER_SECOND").isNone then maxMessagesPerSecond else udpIncoming
  let udpOutgoing := if (env "UDP_OUTGOING_PACKETS_PER_SECOND").isNone then maxMessagesPerSecond else udpOutgoing
  if udpMaxDatagramBytes < 85 ∨ 65507 < udpMaxDatagramBytes then none
  let delay ← delayArgs args sendDelayMs
  let key := (env "MODERATION_SIGNING_KEY").getD ""
  if signingKeyOk key = false then none
  pure {
    sendDelayMs := delay, udpEnabled, udpPort, udpMaxDatagramBytes
    udpIncomingPacketsPerSecond := udpIncoming, udpOutgoingPacketsPerSecond := udpOutgoing
    udpEndpointTtlMs, udpChallengeTtlMs, maxPayloadBytes, maxBufferedBytes, maxAccounts, maxRooms, maxRoomPlayers
    maxMessagesPerSecond, accountTtlMs, heartbeatIntervalMs, idleTimeoutMs, authTimeoutMs
    sessionDirectory := (env "SESSION_DIRECTORY").getD "./sessions"
    sessionMaxBytes, maxSessionBytes, moderationSigningKey := key }

/-- The configurations the loader admits. -/
def Admitted (c : Config) : Prop := ∃ env args, load env args = some c

end Config
end Relay
