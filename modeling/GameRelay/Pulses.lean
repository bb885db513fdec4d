import GameRelay.Steps
import GameRelay.Emits
/-!
# Pulses — what leaves the heartbeat alone

A connection's `Pulse` is when it came and the Ping it has not answered.  `Steady`: the pulses stay, no round-trip time is
set, and no Ping goes out.  Whatever a connection sends is steady, except a Pong that answers its Ping.
-/
namespace Relay

structure Pulse where
  created : Nat
  ping : Option Nat

def Connection.pulse (c : Connection) : Pulse := ⟨c.created, c.ping⟩

/-- The frame is an application Ping. -/
def Message.isPing : Message → Bool
  | .text v => decide (v.idx "method" = .str "Ping")
  | _ => false

theorem not_ping {m : String} {fields : List (String × Value)} (h : m ≠ "Ping") :
    (Message.text (.obj (("method", .str m) :: fields))).isPing = false := by
  show decide (Value.str m = .str "Ping") = false
  simpa using h

theorem Out.unwrap_ne_err {α β : Type} {x : Option β} {k : β → Out α} {t : α} (hk : ∀ b, k b ≠ .err t) : unwrap x k ≠ .err t := by
  cases x with
  | none => exact (fun h => nomatch h)
  | some b => exact hk b

namespace Server

/-- The round-trip time of an account. -/
def rttOf (s : Server) (p : String) : Option Nat := (s.players.get p).bind (·.rtt)

structure Steady (s t : Server) : Prop where
  pulses : ∀ {cid c'}, t.connections.get cid = some c' → ∃ c, s.connections.get cid = some c ∧ c'.pulse = c.pulse
  rtts : ∀ {p r}, t.rttOf p = some r → s.rttOf p = some r
  frames : ∃ new, t.offered = s.offered ++ new ∧ ∀ x ∈ new, x.2.isPing = false

namespace Steady

variable {s t u : Server}

theorem refl (s : Server) : s.Steady s :=
  ⟨fun h => ⟨_, h, rfl⟩, fun h => h, [], (List.append_nil _).symm, fun _ h => nomatch h⟩

theorem trans (h : s.Steady t) (h' : t.Steady u) : s.Steady u := by
  refine ⟨fun hu => ?_, fun hr => h.rtts (h'.rtts hr), ?_⟩
  · obtain ⟨c₁, hc₁, hp₁⟩ := h'.pulses hu
    obtain ⟨c, hc, hp⟩ := h.pulses hc₁
    exact ⟨c, hc, hp₁.trans hp⟩
  · obtain ⟨l, hl, hall⟩ := h.frames
    obtain ⟨l', hl', hall'⟩ := h'.frames
    refine ⟨l ++ l', by rw [hl', hl, List.append_assoc], fun x hx => ?_⟩
    rcases List.mem_append.1 hx with hx | hx
    · exact hall x hx
    · exact hall' x hx

theorem foldl {α : Type} {f : Server → α → Server} (hf : ∀ (s : Server) a, s.Steady (f s a)) :
    ∀ (l : List α) (s : Server), s.Steady (l.foldl f s)
  | [], s => .refl s
  | a :: l, s => (hf s a).trans (foldl hf l (f s a))

/-- The core changes, and sets no round-trip time. -/
theorem core (hn : t.connections = s.connections) (ho : t.offered = s.offered)
    (hr : ∀ {p r}, t.rttOf p = some r → s.rttOf p = some r) : s.Steady t :=
  ⟨fun h => ⟨_, hn ▸ h, rfl⟩, hr, [], ho.trans (List.append_nil _).symm, fun _ h => nomatch h⟩

/-- The core changes, except for the accounts. -/
theorem same (hn : t.connections = s.connections) (ho : t.offered = s.offered) (hp : t.players = s.players) : s.Steady t :=
  core hn ho (fun h => by unfold rttOf at h ⊢; rwa [hp] at h)

theorem setConnection {cid : Nat} {c c' : Connection} (hc : s.connections.get cid = some c) (h : c'.pulse = c.pulse) :
    s.Steady (s.setConnection cid c') := by
  refine ⟨fun {x d} hd => ?_, fun h => h, [], (List.append_nil _).symm, fun _ h => nomatch h⟩
  rw [Server.setConnection, IndexMap.get_insert] at hd
  split at hd
  · rename_i hx
    cases hd
    exact ⟨c, hx ▸ hc, h⟩
  · exact ⟨d, hd, rfl⟩

/-- An account whose round-trip time stays, or is forgotten. -/
theorem setPlayer {id : String} {b : Player} (h : ∀ r, b.rtt = some r → s.rttOf id = some r) : s.Steady (s.setPlayer id b) := by
  refine core rfl rfl (fun {p r} hr => ?_)
  change ((s.players.insert id b).get p).bind (·.rtt) = some r at hr
  rw [IndexMap.get_insert] at hr
  split at hr
  · rename_i hp
    exact hp ▸ h r hr
  · exact hr

theorem setPlayer_same {id : String} {a b : Player} (ha : s.players.get id = some a) (h : b.rtt = a.rtt) :
    s.Steady (s.setPlayer id b) :=
  setPlayer (fun r hr => by unfold rttOf; rw [ha]; exact h.symm.trans hr)

theorem mapPlayers {f : String → Player → Player} (hf : ∀ id a, (f id a).rtt = a.rtt) :
    s.Steady { s with players := s.players.mapVals f } := by
  refine core rfl rfl (fun {p r} hr => ?_)
  change ((s.players.mapVals f).get p).bind (·.rtt) = some r at hr
  unfold rttOf
  rw [IndexMap.get_mapVals] at hr
  cases ha : s.players.get p with
  | none => rw [ha] at hr; cases hr
  | some a => rw [ha] at hr; exact (hf p a).symm.trans hr

theorem modifyPlayer (id : String) {f : Player → Player} (hf : ∀ a, (f a).rtt = a.rtt) :
    s.Steady { s with players := s.players.modify id f } :=
  mapPlayers (fun x a => by split <;> [exact hf a; rfl])

end Steady

variable [Extern]

section Sending

variable (s : Server)

theorem pulse_raw (cid : Nat) (msg : Message) {x : Nat} {c' : Connection} (hx : (s.raw cid msg).connections.get x = some c') :
    ∃ c, s.connections.get x = some c ∧ c'.pulse = c.pulse := by
  unfold raw at hx
  cases hc : s.connections.get cid with
  | none => rw [hc] at hx; exact ⟨c', hx, rfl⟩
  | some c =>
    rw [hc] at hx
    dsimp only at hx
    have put : ∀ d : Connection, d.pulse = c.pulse → (s.connections.insert cid d).get x = some c' →
        ∃ c₀, s.connections.get x = some c₀ ∧ c'.pulse = c₀.pulse := by
      intro d hd hx
      rw [IndexMap.get_insert] at hx
      split at hx
      · rename_i he
        cases hx
        exact ⟨c, he ▸ hc, hd⟩
      · exact ⟨c', hx, rfl⟩
    split at hx
    · exact ⟨c', hx, rfl⟩
    · split at hx
      · exact put _ (by rfl) hx
      · split at hx
        all_goals exact put _ (by rfl) hx

theorem steady_raw (cid : Nat) {msg : Message} (h : msg.isPing = false) : s.Steady (s.raw cid msg) := by
  refine ⟨pulse_raw s cid msg, fun hr => ?_, ?_⟩
  · unfold rttOf at hr ⊢
    rwa [show (s.raw cid msg).players = s.players from congrArg Core.players (raw_toCore s cid msg)] at hr
  · rw [raw_offered]
    split
    · exact ⟨_, rfl, fun x hx => by rw [List.mem_singleton.1 hx]; exact h⟩
    · exact ⟨[], (List.append_nil _).symm, fun _ h => absurd h List.not_mem_nil⟩

theorem steady_sendC (cid : Nat) {v : Value} (h : (Message.text v).isPing = false) : s.Steady (s.sendC cid v) := by
  unfold sendC encoded
  split
  · rename_i msg hm
    refine steady_raw s cid ?_
    split at hm
    · cases hm; exact h
    · rw [Option.none_or] at hm
      split at hm
      · cases hm; exact not_ping (by decide)
      · cases hm
  · exact .refl s

theorem steady_send (p : String) {v : Value} (h : (Message.text v).isPing = false) : s.Steady (s.send p v) := by
  unfold send
  split
  · exact steady_sendC s _ h
  · exact .refl s

theorem steady_error (cid : Nat) (code : String) : s.Steady (s.error cid code) := steady_sendC s cid (not_ping (by decide))

theorem steady_err (p code : String) : s.Steady (s.err p code) := steady_send s p (not_ping (by decide))

theorem steady_close (cid code : Nat) (reason : String) : s.Steady (s.close cid code reason) := steady_raw s cid rfl

theorem steady_reply (p : String) (request data : Value) : s.Steady (s.reply p request data) :=
  steady_send s p (not_ping (by decide))

theorem steady_errorReply (p : String) (req : Value) (code : String) : s.Steady (s.errorReply p req code) :=
  steady_reply s p req _

theorem steady_bytes (p : String) (b : Bytes) : s.Steady (s.bytes p b) := by
  unfold bytes
  split
  · exact steady_raw s _ rfl
  · exact .refl s

theorem steady_broadcastFrame (r : Room) {msg : Message} (except : Option String) (targets : Option Value)
    (h : msg.isPing = false) : s.Steady (s.broadcastFrame r msg except targets) := by
  refine Steady.foldl (fun s id => ?_) _ s
  split
  · split
    · exact steady_raw s _ h
    · exact .refl s
  · exact .refl s

theorem steady_broadcast (r : Room) {v : Value} (except : Option String) (targets : Option Value)
    (h : (Message.text v).isPing = false) : s.Steady (s.broadcast r v except targets) := by
  unfold broadcast
  split
  · rename_i msg hm
    rw [encoded_some hm]
    exact steady_broadcastFrame s r except targets h
  · exact .refl s

theorem steady_lobby {v : Value} (h : (Message.text v).isPing = false) : s.Steady (s.lobby v) := by
  unfold lobby
  split
  · rename_i msg hm
    rw [encoded_some hm]
    refine Steady.foldl (fun s p => ?_) _ s
    split
    · exact steady_raw s _ h
    · exact .refl s
  · exact .refl s

/-- A message is relayed as it is, or refused. -/
theorem steady_relay (p : String) {v : Value} (h : (Message.text v).isPing = false) :
    s.Steady (s.relay p v).1 ∧ ∀ msg, (s.relay p v).2 = some msg → msg.isPing = false := by
  unfold relay
  split
  · rename_i msg hm
    refine ⟨.refl s, fun msg' hm' => ?_⟩
    cases hm'
    rw [encoded_some hm]
    exact h
  · exact ⟨steady_err s p _, fun _ hm => nomatch hm⟩

theorem steady_relayTo (p : String) (r : Room) {v : Value} (except : Option String) (targets : Option Value)
    (h : (Message.text v).isPing = false) : s.Steady (s.relayTo p r v except targets) := by
  obtain ⟨hrel, hmsg⟩ := steady_relay s p h
  unfold relayTo
  split
  · rename_i t msg hr
    rw [hr] at hrel hmsg
    exact hrel.trans (steady_broadcastFrame t r except targets (hmsg msg rfl))
  · rename_i t hr
    rw [hr] at hrel
    exact hrel

theorem steady_relayBytes (r : Room) (p : String) (addressed : String → Bool) (b : Bytes) :
    s.Steady (s.relayBytes r p addressed b) := by
  refine Steady.foldl (fun s id => ?_) _ s
  split
  · exact steady_bytes s id b
  · exact .refl s

theorem steady_offerSeats (r : Room) : s.Steady (s.offerSeats r) := by
  unfold offerSeats
  split
  · refine Steady.foldl (fun s id => ?_) _ s
    split
    · exact steady_send s id (not_ping (by decide))
    · exact .refl s
  · exact .refl s

theorem steady_authenticationFailed (cid : Nat) : s.Steady (s.authenticationFailed cid) :=
  (steady_sendC s cid (not_ping (by decide))).trans (steady_close _ cid _ _)

end Sending

/-! Rooms. -/

omit [Extern] in
/-- What removing an account leaves alone, expiry leaves alone. -/
theorem expire_field {β : Type} {f : Server → β} (hf : ∀ s id, f (removeAccount s id) = f s) (s : Server) (now : Nat) :
    f (s.expire now) = f s := by
  have h : ∀ (ids : List String) (s : Server), f (ids.foldl removeAccount s) = f s := by
    intro ids
    induction ids with
    | nil => intro s; rfl
    | cons id ids ih => intro s; exact (ih (s.removeAccount id)).trans (hf s id)
  exact h _ s

omit [Extern] in
theorem expire_connections (s : Server) (now : Nat) : (s.expire now).connections = s.connections :=
  expire_field (f := fun s => s.connections) (fun _ _ => rfl) s now

omit [Extern] in
theorem steady_expire (s : Server) (now : Nat) : s.Steady (s.expire now) := by
  refine Steady.foldl (f := removeAccount) (fun s id => .core rfl rfl (fun {p r} hr => ?_)) _ s
  change ((s.players.shiftRemove id).get p).bind (·.rtt) = some r at hr
  rw [IndexMap.get_shiftRemove] at hr
  split at hr
  · cases hr
  · exact hr

theorem steady_keep (env : Env) (s : Server) (r : Room) : s.Steady (s.keep env r) := by
  unfold keep
  split
  · split
    · dsimp only
      split
      · refine Steady.trans ?_ (Steady.foldl (fun s id => steady_lobby s (not_ping (by decide))) _ _)
        exact .same rfl rfl rfl
      · exact .same rfl rfl rfl
    · exact .same rfl rfl rfl
  · exact .same rfl rfl rfl

theorem steady_seatIn (env : Env) (s : Server) {p : String} (id : String) {player : Player} (loaded : Option Room)
    (r : Room) (hp : s.players.get p = some player) : s.Steady (s.seatIn env p id player loaded r) := by
  unfold seatIn
  dsimp only
  have htables : s.Steady ((s.record (entryEvents loaded r p)).setRoom id (joined r p)) := .same rfl rfl rfl
  refine Steady.trans (Steady.trans (htables.trans ?_) (steady_broadcast _ _ _ _ (not_ping (by decide))))
    (steady_send _ p (not_ping (by decide)))
  exact .setPlayer_same (a := player) hp rfl

theorem steady_enter (env : Env) (s : Server) (p id : String) (password : Value) :
    (s.enter env p id password).All s.Steady := by
  refine enter_all (.refl s) (fun t code ht => ht.trans (steady_err t p code)) (fun _ => .same rfl rfl rfl)
    (fun _ ht => ht.trans (.same rfl rfl rfl)) (fun t player loaded r hp hpl ht => ?_)
  exact ht.trans (steady_seatIn env t id loaded r (hpl ▸ hp))

omit [Extern] in
theorem steady_releaseMembers (s : Server) (ids : List String) : s.Steady (s.releaseMembers ids) :=
  Steady.foldl (f := fun s id => { s with players := s.players.modify id releasePlayer })
    (fun _ id => .modifyPlayer id (fun _ => rfl)) ids s

theorem steady_leave (env : Env) (s : Server) (p : String) (disconnected : Bool) :
    (s.leave env p disconnected).All s.Steady := by
  unfold leave
  refine Out.all_unwrap (fun player hp => ?_)
  dsimp only
  generalize hs₁ : (if disconnected then s.setPlayer p (releasePlayer player)
    else (s.setPlayer p (releasePlayer player)).dropReservations p) = s₁
  have h₁ : s.Steady s₁ := by
    have hrelease : s.Steady (s.setPlayer p (releasePlayer player)) := .setPlayer_same hp rfl
    rw [← hs₁]
    split
    · exact hrelease
    · exact hrelease.trans (.same rfl rfl rfl)
  split
  · exact h₁
  rename_i id _
  split
  · exact h₁
  rename_i r _
  have h₂ : s.Steady (s₁.removeRoom id) := h₁.trans (.same rfl rfl rfl)
  refine Out.all_ite (fun _ => ?_) (fun _ => Out.all_unwrap (fun first _ => ?_))
  all_goals
    generalize hs₃ : Server.broadcast (s₁.removeRoom id) (departed r p disconnected) _ none none = s₃
    have h₃ : s.Steady s₃ := by
      rw [← hs₃]
      exact h₂.trans (steady_broadcast _ _ none none (not_ping (by cases disconnected <;> decide)))
    generalize hs₄ : (if ownerLost (departed r p disconnected) p then
      s₃.releaseMembers (departed r p disconnected).active.items else s₃) = s₄
    have h₄ : s.Steady s₄ := by
      rw [← hs₄]
      split
      · exact h₃.trans (steady_releaseMembers s₃ _)
      · exact h₃
  · exact Out.all_ite (fun _ => h₄.trans (steady_keep env s₄ _)) (fun _ => h₄.trans (steady_lobby s₄ (not_ping (by decide))))
  · generalize (if ownerLost (departed r p disconnected) p then
      { departed r p disconnected with active := IndexSet.empty } else departed r p disconnected) = r₁
    refine h₄.trans (.trans ?_ ((steady_offerSeats _ _).trans (.same rfl rfl rfl)))
    split
    · exact Steady.trans (.same (t := s₄.record _) rfl rfl rfl) (steady_broadcast _ _ none none (not_ping (by decide)))
    · exact .refl s₄

theorem steady_disconnect (env : Env) (s : Server) (cid : Nat) : (s.disconnect env cid).All s.Steady := by
  unfold disconnect
  split
  · exact .refl s
  rename_i c _
  dsimp only
  generalize ht : ({ s with delayed := s.delayed.filter (fun d => decide (d.cid ≠ cid)),
                            connections := s.connections.shiftRemove cid } : Server) = t
  have h : s.Steady t := by
    rw [← ht]
    refine ⟨fun {x c'} hx => ⟨c', ?_, rfl⟩, fun hr => hr, [], (List.append_nil _).symm, fun _ h => nomatch h⟩
    change (s.connections.shiftRemove cid).get x = some c' at hx
    rw [IndexMap.get_shiftRemove] at hx
    split at hx
    · cases hx
    · exact hx
  split
  · exact h
  split
  · exact h
  rename_i pid _ _ p hp
  split
  · generalize hu : t.setPlayer pid { p with connection := none, offline := some env.now } = u
    have hset : s.Steady u := by
      rw [← hu]
      exact h.trans (.setPlayer_same (a := p) (by rw [← ht]; exact hp) rfl)
    have hl := steady_leave env u pid true
    generalize leave env u pid true = o at hl
    cases o with
    | ok v => exact hset.trans hl
    | err v => exact hset.trans hl
    | halt _ => trivial
  · exact h

/-! The methods of a room. -/

section Methods

variable (env : Env) (s : Server) (p : String) (r : Room)

/-- A room method's server is reached steadily. -/
abbrev SteadyRoom (s : Server) (sr : Server × Room) : Prop := s.Steady sr.1

theorem steady_ownerOnly {k : Out (Server × Room)} (h : k.All s.SteadyRoom) : (s.ownerOnly p r k).All s.SteadyRoom := by
  unfold ownerOnly
  split
  · exact steady_err s p _
  · exact h

theorem steady_session (m : String) (d : Value) : (s.session env p r m d).All s.SteadyRoom := by
  unfold session
  refine Out.all_ite (fun _ => steady_errorReply s p _ _) (fun _ => ?_)
  refine Out.all_ite (fun _ => steady_reply s p _ _) (fun _ => ?_)
  refine Out.all_ite (fun _ => ?_) (fun _ => ?_)
  · unfold getSessionChunk
    refine Out.all_unwrap (fun off _ => Out.all_ite (fun _ => steady_errorReply s p _ _) (fun _ => ?_))
    exact Out.all_unwrap (fun id _ => steady_bytes s p _)
  refine Out.all_ite (fun _ => steady_errorReply s p _ _) (fun _ => ?_)
  refine Out.all_ite (fun _ => ?_) (fun _ => ?_)
  · unfold beginSession
    refine Out.all_ite (fun _ => steady_errorReply s p _ _) (fun _ => Out.all_unwrap (fun size _ => ?_))
    refine Out.all_ite (fun _ => steady_errorReply s p _ _) (fun _ => Out.all_unwrap (fun id _ => ?_))
    exact Steady.trans (.same (t := s.record _) rfl rfl rfl) (steady_reply _ p _ _)
  · unfold commitSession
    dsimp only
    split
    · exact steady_errorReply s p _ _
    refine Out.all_unwrap (fun a _ => Out.all_unwrap (fun outsider _ => ?_))
    refine Out.all_ite (fun _ => steady_errorReply s p _ _) (fun _ => ?_)
    split
    · rename_i st _
      exact Steady.trans (.same (t := { s with store := st }) rfl rfl rfl) (steady_errorReply _ p _ _)
    · rename_i st _
      refine Steady.trans (Steady.trans ?_ (steady_reply _ p _ _)) (steady_broadcast _ _ _ _ (not_ping (by decide)))
      exact .same rfl rfl rfl

omit [Extern] in
theorem steady_pushDevices (notice : Value) (room event id : String) (online : Bool) :
    ∀ (ds : List (String × Value)) (s : Server), (pushDevices notice room event id online ds s).All s.Steady
  | [], s => .refl s
  | (device, d) :: ds, s => by
    unfold pushDevices
    split
    · exact steady_pushDevices notice room event id online ds s
    · refine Out.all_unwrap (fun token _ => ?_)
      dsimp only
      generalize ht : ({ s with legacyPushes := s.legacyPushes ++ [_], pushesInFlight := s.pushesInFlight + 1 } : Server) = t
      have hpush : s.Steady t := by rw [← ht]; exact .same rfl rfl rfl
      exact (steady_pushDevices notice room event id online ds t).mono (fun u h => hpush.trans h)

omit [Extern] in
theorem steady_pushTargets (notice : Value) (room event p : String) :
    ∀ (vs : List Value) (s : Server), (pushTargets notice room event p vs s).All s.Steady
  | [], s => .refl s
  | v :: vs, s => by
    unfold pushTargets
    refine Out.all_unwrap (fun id _ => ?_)
    split
    · exact steady_pushTargets notice room event p vs s
    · split
      · exact steady_pushTargets notice room event p vs s
      · refine Out.all_andThen (steady_pushDevices _ _ _ _ _ _ s) (fun t ht => ?_) (fun t ht => ht)
        exact (steady_pushTargets notice room event p vs t).mono (fun u hu => Steady.trans ht hu)

theorem steady_notifyPlayers (d : Value) : (s.notifyPlayers env p r d).All s.SteadyRoom := by
  unfold notifyPlayers
  refine Out.all_ite (fun _ => steady_err s p _) (fun _ => steady_ownerOnly s p r ?_)
  refine Out.all_unwrap (fun outsider _ => Out.all_ite (fun _ => steady_err s p _) (fun _ => ?_))
  refine Out.all_unwrap (fun targets _ => Out.all_unwrap (fun event _ => ?_))
  refine Out.all_ite (fun _ => .refl s) (fun _ => Out.all_ite (fun _ => steady_err s p _) (fun _ => ?_))
  exact all_mapOut (steady_pushTargets d r.id event p targets s) (fun t ht => ht)

theorem steady_updateRoom (d : Value) : (s.updateRoom p r d).All s.SteadyRoom := by
  unfold updateRoom
  refine steady_ownerOnly s p r (Out.all_ite (fun _ => steady_err s p _) (fun _ => ?_))
  refine Out.all_ite (fun _ => steady_err s p _) (fun _ => Out.all_ite (fun _ => steady_err s p _) (fun _ => ?_))
  exact (steady_broadcast s _ none none (not_ping (by decide))).trans (steady_lobby _ (not_ping (by decide)))

theorem steady_startGame (d : Value) : (s.startGame env p r d).All s.SteadyRoom := by
  unfold startGame
  refine steady_ownerOnly s p r (Out.all_ite (fun _ => steady_err s p _) (fun _ => ?_))
  obtain ⟨hrel, hmsg⟩ := steady_relay s p (v := gameStarted d) (not_ping (by decide))
  split
  · rename_i t hr
    rw [hr] at hrel
    exact hrel
  · rename_i t out hr
    rw [hr] at hrel hmsg
    refine Steady.trans (Steady.trans ?_ (steady_broadcastFrame _ _ none none (hmsg out rfl)))
      (steady_lobby _ (not_ping (by decide)))
    exact Steady.trans hrel (.same rfl rfl rfl)

theorem steady_setRoomMeta (d : Value) : (s.setRoomMeta p r d).All s.SteadyRoom := by
  unfold setRoomMeta
  refine steady_ownerOnly s p r (Out.all_ite (fun _ => steady_err s p _) (fun _ => ?_))
  obtain ⟨hrel, hmsg⟩ := steady_relay s p (v := onSetRoomMeta d) (not_ping (by decide))
  split
  · rename_i t out hr
    rw [hr] at hrel hmsg
    exact hrel.trans (steady_broadcastFrame t _ none none (hmsg out rfl))
  · rename_i t hr
    rw [hr] at hrel
    exact hrel

theorem steady_roomMessage (m : String) (d : Value) : (s.roomMessage env p r m d).All s.SteadyRoom := by
  unfold roomMessage
  refine Out.all_ite (fun _ => steady_session env s p r m d) (fun _ => ?_)
  refine Out.all_ite (fun _ => steady_notifyPlayers env s p r d) (fun _ => ?_)
  refine Out.all_ite (fun _ => steady_updateRoom s p r d) (fun _ => ?_)
  refine Out.all_ite (fun _ => steady_relayTo s p r none none (not_ping (by decide))) (fun _ => ?_)
  refine Out.all_ite (fun _ => steady_relayTo s p r _ none (not_ping (by decide))) (fun _ => ?_)
  refine Out.all_ite (fun _ => steady_relayTo s p r none _ (not_ping (by decide))) (fun _ => ?_)
  refine Out.all_ite (fun _ => ?_) (fun _ => ?_)
  · unfold requestGameState
    split
    · exact Out.all_unwrap (fun a _ => steady_send s _ (not_ping (by decide)))
    · exact .refl s
  refine Out.all_ite (fun _ => steady_startGame env s p r d) (fun _ => ?_)
  refine Out.all_ite (fun _ => steady_ownerOnly s p r ?_) (fun _ => ?_)
  · exact steady_relayTo s p r _ _ (not_ping (by decide))
  exact Out.all_ite (fun _ => steady_setRoomMeta s p r d) (fun _ => .refl s)

theorem steady_inRoom (m : String) (d : Value) : (s.inRoom env p m d).All s.Steady := by
  unfold inRoom
  refine Out.all_unwrap (fun player _ => ?_)
  split
  · exact steady_err s p _
  rename_i id _
  split
  · exact steady_err s p _
  rename_i r _
  refine all_mapOut (steady_roomMessage env (s.takeRoom id) p r m d) (fun sr h => ?_)
  exact Steady.trans (Steady.trans (.same (t := s.takeRoom id) rfl rfl rfl) h) (.same rfl rfl rfl)

/-! The methods of an account. -/

theorem steady_getSavedRooms : ∀ (ids : List Value) (s : Server), (getSavedRooms env p ids s).All s.Steady
  | [], s => .refl s
  | id :: ids, s => by
    unfold getSavedRooms
    refine Out.all_unwrap (fun key _ => ?_)
    split
    · exact .refl s
    · exact (steady_getSavedRooms ids _).mono (fun t ht => (steady_send s p (not_ping (by decide))).trans ht)

theorem steady_changeName (d : Value) : (s.changeName env p d).All s.Steady := by
  unfold changeName
  refine Out.all_unwrap (fun player hp => Out.all_unwrap (fun name _ => ?_))
  dsimp only
  have hset : s.Steady (s.setPlayer p { player with name := name }) := .setPlayer_same hp rfl
  generalize ({ player with name := name } : Player) = pl at *
  have hsave : ∀ st, s.Steady { s.setPlayer p pl with store := st } := fun st => hset.trans (.same rfl rfl rfl)
  split
  · exact hsave _
  · split
    · exact hsave _
    · exact (hsave _).trans (steady_broadcast _ _ none none (not_ping (by decide)))

theorem steady_setPushDevice (d : Value) : (s.setPushDevice env p d).All s.Steady := by
  unfold setPushDevice
  refine Out.all_ite (fun _ => steady_err s p _) (fun _ => ?_)
  refine Out.all_unwrap (fun device _ => Out.all_unwrap (fun player hp => ?_))
  dsimp only
  generalize ht : (if (d.idx "token").isNull then s.setPlayer p { player with devices := player.devices.shiftRemove device }
      else
        { s with players :=
          (s.players.mapVals (fun _ a => claimToken p device (d.idx "token") a)).modify p (fun a => registerDevice a device d)
            }) = t
  have hset : s.Steady t := by
    rw [← ht]
    split
    · exact .setPlayer_same hp rfl
    · exact Steady.trans (t := { s with players := s.players.mapVals (fun _ a => claimToken p device (d.idx "token") a) })
        (.mapPlayers (fun _ _ => rfl)) (.modifyPlayer p (fun _ => rfl))
  have hsave : ∀ st, s.Steady { t with store := st } := fun st => hset.trans (.same rfl rfl rfl)
  refine Out.all_unwrap (fun player' _ => ?_)
  split
  · exact hsave _
  · exact (hsave _).trans (steady_send _ p (not_ping (by decide)))

theorem steady_createRoom (d : Value) : (s.createRoom env p d).All s.Steady := by
  unfold createRoom
  refine Out.all_unwrap (fun player _ => Out.all_ite (fun _ => steady_err s p _) (fun _ => ?_))
  refine Out.all_ite (fun _ => steady_err s p _) (fun _ => ?_)
  refine Out.all_unwrap (fun name _ => Out.all_unwrap (fun max _ => ?_))
  unfold drawId
  refine Out.all_ite (fun _ => trivial) (fun _ => ?_)
  generalize ht : ({ s with draws := s.draws + 1, drawn := (env.uuid s.draws).text :: s.drawn } : Server) = t
  have hdraw : s.Steady t := by rw [← ht]; exact .same rfl rfl rfl
  refine Out.all_ite (fun _ => hdraw.trans (steady_err t p _)) (fun _ => ?_)
  refine Out.all_andThen (P := s.Steady) ?_ (fun u hu => ?_) (fun _ h => h)
  · refine (steady_enter env _ p _ (d.idx "password")).mono (fun u hu => ?_)
    exact (hdraw.trans (.same (t := (t.record _).setRoom _ _) rfl rfl rfl)).trans hu
  · exact Out.all_unwrap (fun r' _ => hu.trans (steady_lobby u (not_ping (by decide))))

/-- **Everything an account asks for is steady except its own Pong.** -/
theorem steady_handle (cid : Nat) {v : Value} (hm : (v.idx "method").asStr ≠ some "Pong") :
    (s.handle env cid p v).All s.Steady := by
  unfold handle
  refine Out.all_unwrap (fun m hv => ?_)
  rw [hv] at hm
  dsimp only
  refine Out.all_ite (fun _ => ?_) (fun _ => ?_)
  · unfold openUdp
    refine Out.all_ite (fun _ => steady_err s p _) (fun _ => Out.all_unwrap (fun player _ => ?_))
    refine Out.all_ite (fun _ => steady_err s p _) (fun _ => Out.all_unwrap (fun c hc => ?_))
    have hdraw : s.Steady { s with draws := s.draws + 1 } := .same rfl rfl rfl
    exact Steady.trans (hdraw.trans (.setConnection hc (by rfl))) (steady_sendC _ cid (not_ping (by decide)))
  refine Out.all_ite (fun _ => ?_) (fun _ => ?_)
  · unfold closeUdp
    exact Out.all_unwrap (fun c hc => Steady.trans (.setConnection hc (by rfl)) (steady_sendC _ cid (not_ping (by decide))))
  refine Out.all_ite (fun hpong => absurd (congrArg some hpong) hm) (fun _ => ?_)
  refine Out.all_ite (fun _ => ?_) (fun _ => ?_)
  · unfold getRooms
    dsimp only
    split
    · exact steady_err s p _
    · exact steady_send s p (not_ping (by decide))
  refine Out.all_ite (fun _ => Out.all_unwrap (fun ids _ => steady_getSavedRooms env p ids s)) (fun _ => ?_)
  refine Out.all_ite (fun _ => ?_) (fun _ => ?_)
  · unfold getPlayers
    refine Out.all_unwrap (fun x _ => ?_)
    split
    · exact .refl s
    · exact steady_send s p (not_ping (by decide))
  refine Out.all_ite (fun _ => steady_changeName env s p _) (fun _ => ?_)
  refine Out.all_ite (fun _ => Out.all_unwrap (fun id _ => steady_enter env s p id _)) (fun _ => ?_)
  refine Out.all_ite (fun _ => steady_leave env s p false) (fun _ => ?_)
  refine Out.all_ite (fun _ => steady_setPushDevice env s p _) (fun _ => ?_)
  refine Out.all_ite (fun _ => ?_) (fun _ => ?_)
  · unfold getModerationTicket
    refine Out.all_unwrap (fun target _ => Out.all_unwrap (fun room _ => ?_))
    dsimp only
    exact Out.all_ite (fun _ => steady_errorReply s p _ _) (fun _ => steady_reply s p _ _)
  exact Out.all_ite (fun _ => steady_createRoom env s p _) (fun _ => steady_inRoom env s p m _)

end Methods

theorem steady_binary (env : Env) (s : Server) (p : String) (b : Bytes) : (s.binary env p b).All s.Steady := by
  unfold binary
  refine Out.all_unwrap (fun player hp => ?_)
  split
  · exact .refl s
  rename_i id hid
  split
  · exact .refl s
  rename_i r hr
  have htake : s.Steady (s.takeRoom id) := .same rfl rfl rfl
  refine Out.all_ite (fun _ => ?_) (fun _ => Out.all_ite (fun _ => steady_relayBytes s r p _ _) (fun _ => ?_))
  · refine all_mapOut (P := s.SteadyRoom) ?_ (fun sr h => Steady.trans h (.same rfl rfl rfl))
    unfold upload
    refine Out.all_ite (fun _ => htake) (fun _ => ?_)
    split
    · exact htake
    refine Out.all_unwrap (fun bid _ => Out.all_ite (fun _ => ?_) (fun _ => ?_))
    · exact htake.trans (steady_errorReply _ p _ _)
    · exact (htake.trans (.same (t := (s.takeRoom id).record _) rfl rfl rfl)).trans (steady_reply _ p _ _)
  · refine Out.all_ite (fun _ => steady_err s p _) (fun _ => ?_)
    exact Out.all_unwrap (fun sender _ => steady_relayBytes s r p _ _)

/-! Authentication. -/

theorem steady_bind (env : Env) (s : Server) (cid : Nat) (id : String) (created : Bool) :
    (s.bind env cid id created).All s.Steady := by
  unfold bind
  refine Out.all_unwrap (fun p _ => ?_)
  dsimp only
  have hrtt : ({ p with connection := some cid, offline := none, rtt := none } : Player).rtt = none := rfl
  generalize ({ p with connection := some cid, offline := none, rtt := none } : Player) = pl at *
  refine Out.all_unwrap (fun c hc => ?_)
  have hpulse : ({ c with player := some id } : Connection).pulse = c.pulse := rfl
  generalize ({ c with player := some id } : Connection) = c' at *
  have hset : ∀ st, s.Steady { (s.setPlayer id pl).setConnection cid c' with store := st } := fun st =>
    (Steady.setPlayer (fun r hr => by rw [hrtt] at hr; cases hr)).trans
      (Steady.trans (.setConnection hc hpulse) (.same rfl rfl rfl))
  split
  · exact hset _
  · rename_i st _
    generalize hs₁ : ({ (s.setPlayer id pl).setConnection cid c' with store := st } : Server) = s₁
    have h₁ : s.Steady s₁ := by rw [← hs₁]; exact hset st
    have hgreet : ∀ fields w, (Message.text w).isPing = false → s.Steady (Server.sendC
        (if created then s₁.sendC cid (.obj (("method", .str "accountCreated") :: fields)) else s₁) cid w) := by
      intro fields w hw
      split
      · exact (h₁.trans (steady_sendC s₁ cid (not_ping (by decide)))).trans (steady_sendC _ cid hw)
      · exact h₁.trans (steady_sendC s₁ cid hw)
    have honline : ∀ s : Server, (Message.text s.onConnected).isPing = false := fun s => not_ping (by decide)
    split
    · exact (hgreet _ _ (honline _)).trans (steady_sendC _ cid (not_ping (by decide)))
    · exact hgreet _ _ (honline _)

theorem steady_replaceSession (s : Server) (p : Player) : s.Steady (s.replaceSession p) := by
  unfold replaceSession
  split
  · exact (steady_close s _ 1008 _).trans (.same rfl rfl rfl)
  · exact .refl s

omit [Extern] in
theorem renamed_rtt (p : Player) (d : Value) : (renamed p d).rtt = p.rtt := by
  unfold renamed
  split <;> rfl

theorem players_replaceSession (s : Server) (p : Player) : (s.replaceSession p).players = s.players := by
  unfold replaceSession
  split
  · rename_i old _
    show (s.close old 1008 "Session replaced").players = s.players
    exact congrArg Core.players (close_toCore s old 1008 _)
  · rfl

/-- An account comes back, from memory or from its file. -/
theorem steady_reconnect (env : Env) (s : Server) (cid : Nat) {p : Player} (d : Value)
    (hp : s.players.get p.id = some p ∨ p.rtt = none) : (s.reconnect env cid p d).All s.Steady := by
  unfold reconnect
  dsimp only
  have hrtt : ∀ r, p.rtt = some r → s.rttOf p.id = some r := fun r hr => by
    rcases hp with hp | hp
    · unfold rttOf
      rw [hp]
      exact hr
    · rw [hp] at hr
      cases hr
  generalize ht : (if s.players.contains p.id then s else s.setPlayer p.id p) = t
  have hstart : s.Steady t := by
    rw [← ht]
    split
    · exact .refl s
    · exact .setPlayer hrtt
  have hbind : ∀ (u : Server) (q : Player), s.Steady u → (∀ r, q.rtt = some r → u.rttOf p.id = some r) →
      (bind env ((u.replaceSession q).setPlayer p.id (renamed q d)) cid p.id false).All s.Steady := by
    intro u q hu hq
    refine (steady_bind env _ cid p.id false).mono (fun v hv => ?_)
    refine ((hu.trans (steady_replaceSession u q)).trans (.setPlayer (fun r hr => ?_))).trans hv
    rw [renamed_rtt] at hr
    unfold rttOf
    rw [players_replaceSession]
    exact hq r hr
  split
  · refine Out.all_andThen ((steady_leave env t p.id true).mono (fun u hu => hstart.trans hu)) (fun u hu => ?_) (fun _ h => h)
    exact Out.all_unwrap (fun q hq => hbind u q hu (fun r hr => by unfold rttOf; rw [hq]; exact hr))
  · refine hbind t p hstart (fun r hr => ?_)
    rw [← ht]
    split
    · exact hrtt r hr
    · show ((s.players.insert p.id p).get p.id).bind (·.rtt) = some r
      rw [IndexMap.get_insert_self]
      exact hr

theorem steady_auth (env : Env) (s : Server) (cid : Nat) (d : Value) (hk : s.world.Keyed) : (s.auth env cid d).All s.Steady := by
  have hexp : s.Steady (s.expire env.now) := steady_expire s env.now
  have hfail := hexp.trans (steady_authenticationFailed (s.expire env.now) cid)
  unfold auth
  dsimp only
  refine Out.all_ite (fun _ => Out.all_ite (fun _ => ?_) (fun _ => ?_)) (fun _ => ?_)
  · exact (hexp.trans (steady_error _ cid _)).trans (steady_close _ cid _ _)
  · unfold drawId
    refine Out.all_ite (fun _ => trivial) (fun _ => ?_)
    generalize ht : ({ s.expire env.now with draws := (s.expire env.now).draws + 1, drawn :=
      (env.uuid (s.expire env.now).draws).text :: (s.expire env.now).drawn } : Server) = t
    have hdraw : s.Steady t := by rw [← ht]; exact hexp.trans (.same rfl rfl rfl)
    refine (steady_bind env _ cid _ true).mono (fun u hu => (hdraw.trans (.setPlayer (fun r h => ?_))).trans hu)
    cases h
  · split
    · exact hexp
    · exact hfail
    · rename_i p hret
      refine Out.all_ite (fun _ => hfail) (fun _ => ?_)
      refine (steady_reconnect env _ cid d ?_).mono (fun t ht => hexp.trans ht)
      unfold retainedAccount at hret
      have hk₁ : (s.expire env.now).world.Keyed :=
        PlayedBy.keyed (expire_done hk env.now : PlayedBy env s .sweep _ _) hk
      split at hret
      · rename_i hp'
        cases hret
        have hkey : p.id = _ := hk₁.seats (seats_eq hp')
        exact .inl (hkey.symm ▸ hp')
      · split at hret
        · refine .inr ?_
          unfold Store.account at hret
          repeat' split at hret
          all_goals cases hret
          rfl
        · cases hret

/-! Frames. -/

theorem steady_dispatch (env : Env) (s : Server) (cid : Nat) (frame : Frame) (parsed : Option Value)
    (hm : ∀ txt v, frame = .text txt → parsed.or (Protocol.parse txt) = some v → (v.idx "method").asStr ≠ some "Pong") :
    (s.dispatch env cid frame parsed).All s.Steady := by
  unfold dispatch
  split
  · exact .refl s
  rename_i p _
  cases frame with
  | text t =>
    refine Out.all_unwrap (fun v hv => ?_)
    exact reportErr_all (steady_handle env s p cid (hm t v rfl hv)) (fun _ h => h) (fun t h => h.trans (steady_error t cid _))
  | binary b =>
    exact reportErr_all (steady_binary env s p b) (fun _ h => h) (fun t h => h.trans (steady_error t cid _))
  | ping _ => exact .refl s
  | pong _ => exact .refl s

theorem steady_submit (env : Env) (s : Server) (cid : Nat) (p : String) (frame : Frame) (roomScoped immediate : Bool)
    (parsed : Option Value) (h : (s.dispatch env cid frame parsed).All s.Steady) :
    (s.submit env cid p frame roomScoped immediate parsed).All s.Steady := by
  unfold submit
  split
  · refine Out.all_unwrap (fun k hk => Out.all_ite (fun _ => steady_close s cid _ _) (fun _ => Out.all_unwrap (fun a _ => ?_)))
    generalize hk' : ({ k with delayed := k.delayed + frame.len, pending := k.pending + 1 } : Connection) = k'
    have hset : s.Steady (s.setConnection cid k') := .setConnection hk (by rw [← hk']; rfl)
    exact hset.trans (.same rfl rfl rfl)
  · exact h

end Server
end Relay
