import Mathlib
import GameRelay.Config
/-!
# Settings — which configurations the loader admits

`Config.Sound` says what the rest of the relay may rely on.  The loader admits nothing else (`load_sound`); and it reads
every such configuration back from an environment that spells it out (`load_environment`), so it refuses none.
-/
namespace Relay
namespace Config

/-- A number that the loader takes for a setting of this kind. -/
structure Setting (k : String) (n : Nat) : Prop where
  least : n = 0 → k = "port" ∨ k = "udpPort" ∨ k = "sendDelayMs"
  most : n ≤ settingMax k

/-- **What every admitted configuration satisfies.** -/
structure Sound (c : Config) : Prop where
  sendDelayMs : Setting "sendDelayMs" c.sendDelayMs
  udpPort : Setting "udpPort" c.udpPort
  udpMaxDatagramBytes : 85 ≤ c.udpMaxDatagramBytes ∧ c.udpMaxDatagramBytes ≤ 65507
  udpIncomingPacketsPerSecond : Setting "udpIncomingPacketsPerSecond" c.udpIncomingPacketsPerSecond
  udpOutgoingPacketsPerSecond : Setting "udpOutgoingPacketsPerSecond" c.udpOutgoingPacketsPerSecond
  udpEndpointTtlMs : Setting "udpEndpointTtlMs" c.udpEndpointTtlMs
  udpChallengeTtlMs : Setting "udpChallengeTtlMs" c.udpChallengeTtlMs
  maxPayloadBytes : Setting "maxPayloadBytes" c.maxPayloadBytes
  maxBufferedBytes : Setting "maxBufferedBytes" c.maxBufferedBytes
  maxAccounts : Setting "maxAccounts" c.maxAccounts
  maxRooms : Setting "maxRooms" c.maxRooms
  maxRoomPlayers : Setting "maxRoomPlayers" c.maxRoomPlayers
  maxMessagesPerSecond : Setting "maxMessagesPerSecond" c.maxMessagesPerSecond
  accountTtlMs : Setting "accountTtlMs" c.accountTtlMs
  heartbeatIntervalMs : Setting "heartbeatIntervalMs" c.heartbeatIntervalMs
  idleTimeoutMs : Setting "idleTimeoutMs" c.idleTimeoutMs
  authTimeoutMs : Setting "authTimeoutMs" c.authTimeoutMs
  sessionMaxBytes : Setting "sessionMaxBytes" c.sessionMaxBytes
  maxSessionBytes : Setting "maxSessionBytes" c.maxSessionBytes
  moderationSigningKey : signingKeyOk c.moderationSigningKey = true

/-- The settings of a configuration as an environment spells them. -/
def texts (c : Config) : List (String × String) :=
  [("sendDelayMs", Nat.repr c.sendDelayMs), ("udpEnabled", if c.udpEnabled then "true" else "false"),
    ("udpPort", Nat.repr c.udpPort), ("udpMaxDatagramBytes", Nat.repr c.udpMaxDatagramBytes),
    ("udpIncomingPacketsPerSecond", Nat.repr c.udpIncomingPacketsPerSecond),
    ("udpOutgoingPacketsPerSecond", Nat.repr c.udpOutgoingPacketsPerSecond),
    ("udpEndpointTtlMs", Nat.repr c.udpEndpointTtlMs), ("udpChallengeTtlMs", Nat.repr c.udpChallengeTtlMs),
    ("maxPayloadBytes", Nat.repr c.maxPayloadBytes), ("maxBufferedBytes", Nat.repr c.maxBufferedBytes),
    ("maxAccounts", Nat.repr c.maxAccounts), ("maxRooms", Nat.repr c.maxRooms),
    ("maxRoomPlayers", Nat.repr c.maxRoomPlayers), ("maxMessagesPerSecond", Nat.repr c.maxMessagesPerSecond),
    ("accountTtlMs", Nat.repr c.accountTtlMs), ("heartbeatIntervalMs", Nat.repr c.heartbeatIntervalMs),
    ("idleTimeoutMs", Nat.repr c.idleTimeoutMs), ("authTimeoutMs", Nat.repr c.authTimeoutMs),
    ("sessionDirectory", c.sessionDirectory), ("sessionMaxBytes", Nat.repr c.sessionMaxBytes),
    ("maxSessionBytes", Nat.repr c.maxSessionBytes), ("moderationSigningKey", c.moderationSigningKey)]

def environment (c : Config) (name : String) : Option String :=
  ((texts c).find? (fun x => decide (envKey x.1 = name))).map Prod.snd

/-! Decimal digits. -/

theorem digit_value : ∀ d < 10, (Nat.digitChar d).toNat - 48 = d := by decide

theorem foldl_toDigits (n : Nat) : (Nat.toDigits 10 n).foldl (fun n c => 10 * n + (c.toNat - 48)) 0 = n := by
  induction n using Nat.strongRecOn with
  | ind n ih =>
    rw [Nat.toDigits_eq_if (by decide)]
    split
    · rename_i h
      show 10 * 0 + ((Nat.digitChar n).toNat - 48) = n
      rw [digit_value n h]
      omega
    · rename_i h
      rw [List.foldl_append, ih (n / 10) (by omega)]
      show 10 * (n / 10) + ((Nat.digitChar (n % 10)).toNat - 48) = n
      rw [digit_value _ (Nat.mod_lt _ (by decide))]
      omega

/-- **A number's decimal digits are read as it.** -/
theorem digits_repr (n : Nat) : digits (Nat.repr n) = some n := by
  have hlist : (Nat.repr n).toList = Nat.toDigits 10 n := by
    rw [Nat.repr_eq_ofList_toDigits, String.toList_ofList]
  have hall : (Nat.toDigits 10 n).all Char.isDigit = true :=
    List.all_eq_true.2 (fun c hc => Nat.isDigit_of_mem_toDigits (by decide) (by decide) hc)
  have hne : (Nat.repr n).isEmpty = false := by
    rw [Bool.eq_false_iff]
    intro he
    rw [String.isEmpty_iff] at he
    rw [he] at hlist
    exact Nat.toDigits_ne_nil hlist.symm
  unfold digits
  rw [hne, hlist, hall, foldl_toDigits]
  rfl

theorem number_some {env : String → Option String} {k : String} {dflt n : Nat} (hd : Setting k dflt)
    (h : number env k dflt = some n) : Setting k n := by
  unfold number at h
  split at h
  · cases h
    exact hd
  · split at h
    · cases h
    · split at h
      · cases h
      · rename_i hok
        cases h
        rw [not_or, not_lt, not_and_not_right] at hok
        refine ⟨fun h0 => ?_, hok.1⟩
        simpa using hok.2 h0

/-- Where keys differ, an entry is found by its key. -/
theorem find?_of_nodup {α β : Type} [DecidableEq β] {f : α → β} {l : List α} (hn : (l.map f).Nodup) {x : α} (hx : x ∈ l) :
    l.find? (fun y => decide (f y = f x)) = some x := by
  cases hf : l.find? (fun y => decide (f y = f x)) with
  | none => exact absurd (decide_eq_true rfl) (List.find?_eq_none.1 hf x hx)
  | some y =>
    have hy := List.find?_some hf
    rw [List.inj_on_of_nodup_map hn (List.mem_of_find?_eq_some hf) hx (of_decide_eq_true hy)]

theorem environment_of_mem {c : Config} {k v : String} (h : (k, v) ∈ texts c) : environment c (envKey k) = some v := by
  have hkeys : ((texts c).map (fun x => envKey x.1)).Nodup := by
    show (["sendDelayMs", "udpEnabled", "udpPort", "udpMaxDatagramBytes", "udpIncomingPacketsPerSecond",
      "udpOutgoingPacketsPerSecond", "udpEndpointTtlMs", "udpChallengeTtlMs", "maxPayloadBytes", "maxBufferedBytes",
      "maxAccounts", "maxRooms", "maxRoomPlayers", "maxMessagesPerSecond", "accountTtlMs", "heartbeatIntervalMs",
      "idleTimeoutMs", "authTimeoutMs", "sessionDirectory", "sessionMaxBytes", "maxSessionBytes",
      "moderationSigningKey"].map envKey).Nodup
    decide +kernel
  show ((texts c).find? (fun x => decide (envKey x.1 = envKey (k, v).1))).map Prod.snd = some v
  rw [find?_of_nodup hkeys h]
  rfl

theorem number_environment {c : Config} {k : String} {n : Nat} (h : (k, Nat.repr n) ∈ texts c) (hs : Setting k n)
    (dflt : Nat) : number (environment c) k dflt = some n := by
  unfold number
  rw [environment_of_mem h]
  dsimp only
  rw [digits_repr]
  dsimp only
  rw [if_neg]
  rintro (hlt | ⟨h0, hk⟩)
  · exact absurd hs.most (Nat.not_le_of_lt hlt)
  · exact hk (by simpa using hs.least h0)

/-- The delay given last is a delay. -/
theorem delayArgs_le : ∀ (args : List String) {n d : Nat}, n ≤ 2147483647 → delayArgs args n = some d → d ≤ 2147483647
  | [], n, d, hn, h => by cases h; exact hn
  | a :: as, n, d, hn, h => by
    unfold delayArgs at h
    split at h
    · split at h
      · cases h
      · split at h
        · cases h
        · rename_i hd
          exact delayArgs_le as (Nat.le_of_not_lt hd) h
    · exact delayArgs_le as hn h

/-- **What the loader returns is sound**, whatever the environment and the arguments. -/
theorem load_sound {env : String → Option String} {args : List String} {c : Config} (h : load env args = some c) :
    c.Sound := by
  unfold load at h
  obtain ⟨sendDelayMs, hsend, h⟩ := Option.bind_eq_some_iff.1 h
  obtain ⟨udpEnabled, -, h⟩ := Option.bind_eq_some_iff.1 h
  obtain ⟨udpPort, hport, h⟩ := Option.bind_eq_some_iff.1 h
  obtain ⟨udpMaxDatagramBytes, hdatagram, h⟩ := Option.bind_eq_some_iff.1 h
  obtain ⟨udpIncoming, hin, h⟩ := Option.bind_eq_some_iff.1 h
  obtain ⟨udpOutgoing, hout, h⟩ := Option.bind_eq_some_iff.1 h
  obtain ⟨udpEndpointTtlMs, hendpoint, h⟩ := Option.bind_eq_some_iff.1 h
  obtain ⟨udpChallengeTtlMs, hchallenge, h⟩ := Option.bind_eq_some_iff.1 h
  obtain ⟨maxPayloadBytes, hpayload, h⟩ := Option.bind_eq_some_iff.1 h
  obtain ⟨maxBufferedBytes, hbuffered, h⟩ := Option.bind_eq_some_iff.1 h
  obtain ⟨maxAccounts, haccounts, h⟩ := Option.bind_eq_some_iff.1 h
  obtain ⟨maxRooms, hrooms, h⟩ := Option.bind_eq_some_iff.1 h
  obtain ⟨maxRoomPlayers, hplayers, h⟩ := Option.bind_eq_some_iff.1 h
  obtain ⟨maxMessagesPerSecond, hmessages, h⟩ := Option.bind_eq_some_iff.1 h
  obtain ⟨accountTtlMs, haccount, h⟩ := Option.bind_eq_some_iff.1 h
  obtain ⟨heartbeatIntervalMs, hheartbeat, h⟩ := Option.bind_eq_some_iff.1 h
  obtain ⟨idleTimeoutMs, hidle, h⟩ := Option.bind_eq_some_iff.1 h
  obtain ⟨authTimeoutMs, hauth, h⟩ := Option.bind_eq_some_iff.1 h
  obtain ⟨sessionMaxBytes, hsessions, h⟩ := Option.bind_eq_some_iff.1 h
  obtain ⟨maxSessionBytes, hsession, h⟩ := Option.bind_eq_some_iff.1 h
  dsimp only at h
  by_cases hsize : udpMaxDatagramBytes < 85 ∨ 65507 < udpMaxDatagramBytes
  · rw [if_pos hsize] at h
    cases h
  rw [if_neg hsize] at h
  obtain ⟨delay, hdelay, h⟩ := Option.bind_eq_some_iff.1 h
  by_cases hkey : signingKeyOk ((env "MODERATION_SIGNING_KEY").getD "") = false
  · rw [if_pos hkey] at h
    cases h
  rw [if_neg hkey] at h
  cases h
  have hrange : 85 ≤ udpMaxDatagramBytes ∧ udpMaxDatagramBytes ≤ 65507 := by omega
  have hmessage := number_some ⟨by decide, by decide⟩ hmessages
  -- a quota is its own setting or the shared one
  have quota : ∀ {k : String} {n : Nat} {b : Bool}, Setting k n → settingMax k = settingMax "maxMessagesPerSecond" →
      Setting k (if b = true then maxMessagesPerSecond else n) := by
    intro k n b hn hk
    split
    · exact ⟨fun h0 => absurd (hmessage.least h0) (by decide), hk ▸ hmessage.most⟩
    · exact hn
  exact {
    sendDelayMs := ⟨fun _ => .inr (.inr rfl), delayArgs_le args (number_some ⟨by decide, by decide⟩ hsend).most hdelay⟩
    udpPort := number_some ⟨by decide, by decide⟩ hport
    udpMaxDatagramBytes := hrange
    udpIncomingPacketsPerSecond := quota (number_some ⟨by decide, by decide⟩ hin) (by decide)
    udpOutgoingPacketsPerSecond := quota (number_some ⟨by decide, by decide⟩ hout) (by decide)
    udpEndpointTtlMs := number_some ⟨by decide, by decide⟩ hendpoint
    udpChallengeTtlMs := number_some ⟨by decide, by decide⟩ hchallenge
    maxPayloadBytes := number_some ⟨by decide, by decide⟩ hpayload
    maxBufferedBytes := number_some ⟨by decide, by decide⟩ hbuffered
    maxAccounts := number_some ⟨by decide, by decide⟩ haccounts
    maxRooms := number_some ⟨by decide, by decide⟩ hrooms
    maxRoomPlayers := number_some ⟨by decide, by decide⟩ hplayers
    maxMessagesPerSecond := hmessage
    accountTtlMs := number_some ⟨by decide, by decide⟩ haccount
    heartbeatIntervalMs := number_some ⟨by decide, by decide⟩ hheartbeat
    idleTimeoutMs := number_some ⟨by decide, by decide⟩ hidle
    authTimeoutMs := number_some ⟨by decide, by decide⟩ hauth
    sessionMaxBytes := number_some ⟨by decide, by decide⟩ hsessions
    maxSessionBytes := number_some ⟨by decide, by decide⟩ hsession
    moderationSigningKey := eq_true_of_ne_false hkey }

/-- **A sound configuration is read back** from an environment that spells it out. -/
theorem load_environment {c : Config} (h : c.Sound) : load (environment c) [] = some c := by
  have hbool : boolean (environment c) "udpEnabled" false = some c.udpEnabled := by
    unfold boolean
    rw [environment_of_mem (v := if c.udpEnabled then "true" else "false") (by simp [texts])]
    cases c.udpEnabled <;> rfl
  have given : ∀ {k v name : String}, envKey k = name → (k, v) ∈ texts c → environment c name = some v :=
    fun he hm => he ▸ environment_of_mem hm
  have hin := given (by decide +kernel : envKey "udpIncomingPacketsPerSecond" = "UDP_INCOMING_PACKETS_PER_SECOND")
    (show (_, Nat.repr c.udpIncomingPacketsPerSecond) ∈ texts c by simp [texts])
  have hout := given (by decide +kernel : envKey "udpOutgoingPacketsPerSecond" = "UDP_OUTGOING_PACKETS_PER_SECOND")
    (show (_, Nat.repr c.udpOutgoingPacketsPerSecond) ∈ texts c by simp [texts])
  have hdirectory := given (by decide +kernel : envKey "sessionDirectory" = "SESSION_DIRECTORY")
    (show (_, c.sessionDirectory) ∈ texts c by simp [texts])
  have hkey := given (by decide +kernel : envKey "moderationSigningKey" = "MODERATION_SIGNING_KEY")
    (show (_, c.moderationSigningKey) ∈ texts c by simp [texts])
  have hdatagram : Setting "udpMaxDatagramBytes" c.udpMaxDatagramBytes :=
    ⟨fun h0 => by have := h.udpMaxDatagramBytes; omega, Nat.le_trans h.udpMaxDatagramBytes.2 (by decide)⟩
  unfold load
  rw [number_environment (by simp [texts]) h.sendDelayMs, hbool, number_environment (by simp [texts]) h.udpPort,
    number_environment (by simp [texts]) hdatagram, number_environment (by simp [texts]) h.udpIncomingPacketsPerSecond,
    number_environment (by simp [texts]) h.udpOutgoingPacketsPerSecond,
    number_environment (by simp [texts]) h.udpEndpointTtlMs, number_environment (by simp [texts]) h.udpChallengeTtlMs,
    number_environment (by simp [texts]) h.maxPayloadBytes, number_environment (by simp [texts]) h.maxBufferedBytes,
    number_environment (by simp [texts]) h.maxAccounts, number_environment (by simp [texts]) h.maxRooms,
    number_environment (by simp [texts]) h.maxRoomPlayers, number_environment (by simp [texts]) h.maxMessagesPerSecond,
    number_environment (by simp [texts]) h.accountTtlMs, number_environment (by simp [texts]) h.heartbeatIntervalMs,
    number_environment (by simp [texts]) h.idleTimeoutMs, number_environment (by simp [texts]) h.authTimeoutMs,
    number_environment (by simp [texts]) h.sessionMaxBytes, number_environment (by simp [texts]) h.maxSessionBytes]
  rw [hin, hout, hdirectory, hkey]
  have hrange : ¬ (c.udpMaxDatagramBytes < 85 ∨ 65507 < c.udpMaxDatagramBytes) := by
    have := h.udpMaxDatagramBytes
    omega
  simp only [Option.bind_eq_bind, Option.bind_some, Option.isNone_some, Bool.false_eq_true, if_false, Option.getD_some,
    h.moderationSigningKey, Bool.true_eq_false, if_neg hrange, delayArgs]
  rfl

end Config
end Relay
