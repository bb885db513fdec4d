import GameRelay.Pulses
/-!
# Edits — what handling does to a connection

Whatever a bound connection asks for, and whatever others ask for, a connection changes by `Edit`s only: frames are queued
to it or overflow its queue, its datagram session is replaced, its Ping is answered, its delayed frames are counted.
`Revises`: every connection that is still there came from itself by edits.
-/
namespace Relay

variable [Extern]

/-- One change to a connection while a message is handled. -/
inductive Connection.Edit : Connection → Connection → Prop where
  | queued (c : Connection) (msg : Message) (hc : c.closing = false) (hm : msg.isClose = false) :
      Edit c { c with closing := msg.isClose, queued := c.queued + msg.cost, out := c.out ++ [msg] }
  | unread (c : Connection) (msg : Message) (hc : c.closing = false) (hm : msg.isClose = false) :
      Edit c { c with closing := msg.isClose }
  | overflowed (c : Connection) : Edit c { c with closing := true, abort := true }
  | rekeyed (c : Connection) (u : Option Udp.Session) : Edit c { c with udp := u }
  | ponged (c : Connection) : Edit c { c with ping := none }
  | waiting (c : Connection) (bytes frames : Nat) : Edit c { c with delayed := bytes, pending := frames }

/-- Any number of edits. -/
abbrev Connection.Edits : Connection → Connection → Prop := Relation.ReflTransGen Connection.Edit

namespace Server

/-- Every connection that is still there came from itself by edits. -/
structure Revises (s t : Server) : Prop where
  edits : ∀ {cid c'}, t.connections.get cid = some c' → ∃ c, s.connections.get cid = some c ∧ c.Edits c'

namespace Revises

variable {s t u : Server}

theorem refl (s : Server) : s.Revises s := ⟨fun h => ⟨_, h, .refl⟩⟩

theorem trans (h : s.Revises t) (h' : t.Revises u) : s.Revises u := ⟨fun hu => by
  obtain ⟨c₁, hc₁, he₁⟩ := h'.edits hu
  obtain ⟨c, hc, he⟩ := h.edits hc₁
  exact ⟨c, hc, he.trans he₁⟩⟩

theorem foldl {α : Type} {f : Server → α → Server} (hf : ∀ (s : Server) a, s.Revises (f s a)) :
    ∀ (l : List α) (s : Server), s.Revises (l.foldl f s)
  | [], s => .refl s
  | a :: l, s => (hf s a).trans (foldl hf l (f s a))

/-- Connections are left alone. -/
theorem same (h : t.connections = s.connections) : s.Revises t := ⟨fun ht => ⟨_, h ▸ ht, .refl⟩⟩

theorem setConnection {cid : Nat} {c c' : Connection} (hc : s.connections.get cid = some c) (h : c.Edits c') :
    s.Revises (s.setConnection cid c') := by
  refine ⟨fun {x d} hd => ?_⟩
  rw [Server.setConnection, IndexMap.get_insert] at hd
  split at hd
  · rename_i hx
    cases hd
    exact ⟨c, hx ▸ hc, h⟩
  · exact ⟨d, hd, .refl⟩

end Revises

section Sending

variable (s : Server)

/-- A frame that is no Close is queued, or overflows the queue. -/
theorem revises_raw (cid : Nat) {msg : Message} (h : msg.isClose = false) : s.Revises (s.raw cid msg) := by
  unfold raw
  split
  · exact .refl s
  rename_i c hc
  dsimp only
  have hlog : s.Revises { s with offered := s.offered ++ [(cid, msg)] } := .same rfl
  split
  · exact hlog
  rename_i hopen
  have hopen : c.closing = false := eq_false_of_ne_true hopen
  have put : ∀ {c' : Connection}, c.Edit c' →
      s.Revises (setConnection { s with offered := s.offered ++ [(cid, msg)] } cid c') := fun he =>
    hlog.trans (.setConnection hc (.single he))
  split
  · exact put (.overflowed c)
  · split
    · exact put (.queued c msg hopen h)
    · exact put (.unread c msg hopen h)

theorem revises_sendC (cid : Nat) {v : Value} : s.Revises (s.sendC cid v) := by
  unfold sendC encoded
  split
  · rename_i msg hm
    refine revises_raw s cid ?_
    split at hm
    · cases hm; rfl
    · rw [Option.none_or] at hm
      split at hm
      · cases hm; rfl
      · cases hm
  · exact .refl s

theorem revises_send (p : String) {v : Value} : s.Revises (s.send p v) := by
  unfold send
  split
  · exact revises_sendC s _
  · exact .refl s

theorem revises_error (cid : Nat) (code : String) : s.Revises (s.error cid code) := revises_sendC s cid

theorem revises_err (p code : String) : s.Revises (s.err p code) := revises_send s p

theorem revises_reply (p : String) (request data : Value) : s.Revises (s.reply p request data) :=
  revises_send s p

theorem revises_errorReply (p : String) (req : Value) (code : String) : s.Revises (s.errorReply p req code) :=
  revises_reply s p req _

theorem revises_bytes (p : String) (b : Bytes) : s.Revises (s.bytes p b) := by
  unfold bytes
  split
  · exact revises_raw s _ rfl
  · exact .refl s

theorem revises_broadcastFrame (r : Room) {msg : Message} (except : Option String) (targets : Option Value)
    (h : msg.isClose = false) : s.Revises (s.broadcastFrame r msg except targets) := by
  refine Revises.foldl (fun s id => ?_) _ s
  split
  · split
    · exact revises_raw s _ h
    · exact .refl s
  · exact .refl s

theorem revises_broadcast (r : Room) {v : Value} (except : Option String) (targets : Option Value) :
    s.Revises (s.broadcast r v except targets) := by
  unfold broadcast
  split
  · rename_i msg hm
    rw [encoded_some hm]
    exact revises_broadcastFrame s r except targets rfl
  · exact .refl s

theorem revises_lobby {v : Value} : s.Revises (s.lobby v) := by
  unfold lobby
  split
  · rename_i msg hm
    rw [encoded_some hm]
    refine Revises.foldl (fun s p => ?_) _ s
    split
    · exact revises_raw s _ rfl
    · exact .refl s
  · exact .refl s

/-- A message is relayed as it is, or refused. -/
theorem revises_relay (p : String) {v : Value} :
    s.Revises (s.relay p v).1 ∧ ∀ msg, (s.relay p v).2 = some msg → msg.isClose = false := by
  unfold relay
  split
  · rename_i msg hm
    refine ⟨.refl s, fun msg' hm' => ?_⟩
    cases hm'
    rw [encoded_some hm]
    rfl
  · exact ⟨revises_err s p _, fun _ hm => by cases hm⟩

theorem revises_relayTo (p : String) (r : Room) {v : Value} (except : Option String) (targets : Option Value) :
    s.Revises (s.relayTo p r v except targets) := by
  obtain ⟨hrel, hmsg⟩ := revises_relay s p
  unfold relayTo
  split
  · rename_i t msg hr
    rw [hr] at hrel hmsg
    exact hrel.trans (revises_broadcastFrame t r except targets (hmsg msg rfl))
  · rename_i t hr
    rw [hr] at hrel
    exact hrel

theorem revises_relayBytes (r : Room) (p : String) (addressed : String → Bool) (b : Bytes) :
    s.Revises (s.relayBytes r p addressed b) := by
  refine Revises.foldl (fun s id => ?_) _ s
  split
  · exact revises_bytes s id b
  · exact .refl s

theorem revises_offerSeats (r : Room) : s.Revises (s.offerSeats r) := by
  unfold offerSeats
  split
  · refine Revises.foldl (fun s id => ?_) _ s
    split
    · exact revises_send s id
    · exact .refl s
  · exact .refl s

end Sending

/-! Rooms. -/

theorem revises_expire (s : Server) (now : Nat) : s.Revises (s.expire now) := .same (expire_connections s now)

theorem revises_keep (env : Env) (s : Server) (r : Room) : s.Revises (s.keep env r) := by
  unfold keep
  split
  · split
    · dsimp only
      split
      · refine Revises.trans ?_ (Revises.foldl (fun s id => revises_lobby s) _ _)
        exact .same rfl
      · exact .same rfl
    · exact .same rfl
  · exact .same rfl

theorem revises_seatIn (env : Env) (s : Server) {p : String} (id : String) {player : Player} (loaded : Option Room)
    (r : Room) : s.Revises (s.seatIn env p id player loaded r) := by
  unfold seatIn
  dsimp only
  have htables : s.Revises ((s.record (entryEvents loaded r p)).setRoom id (joined r p)) := .same rfl
  refine Revises.trans (Revises.trans (htables.trans ?_) (revises_broadcast _ _ _ _))
    (revises_send _ p)
  exact .same rfl

theorem revises_enter (env : Env) (s : Server) (p id : String) (password : Value) :
    (s.enter env p id password).All s.Revises := by
  refine enter_all (.refl s) (fun t code ht => ht.trans (revises_err t p code)) (fun _ => .same rfl)
    (fun _ ht => ht.trans (.same rfl)) (fun t player loaded r _ _ ht => ?_)
  exact ht.trans (revises_seatIn env t id loaded r)

theorem revises_releaseMembers (s : Server) (ids : List String) : s.Revises (s.releaseMembers ids) :=
  Revises.foldl (f := fun s id => { s with players := s.players.modify id releasePlayer })
    (fun _ _ => .same rfl) ids s

theorem revises_leave (env : Env) (s : Server) (p : String) (disconnected : Bool) :
    (s.leave env p disconnected).All s.Revises := by
  unfold leave
  refine Out.all_unwrap (fun player hp => ?_)
  dsimp only
  generalize hs₁ : (if disconnected then s.setPlayer p (releasePlayer player)
    else (s.setPlayer p (releasePlayer player)).dropReservations p) = s₁
  have h₁ : s.Revises s₁ := by
    have hrelease : s.Revises (s.setPlayer p (releasePlayer player)) := .same rfl
    rw [← hs₁]
    split
    · exact hrelease
    · exact hrelease.trans (.same rfl)
  split
  · exact h₁
  rename_i id _
  split
  · exact h₁
  rename_i r _
  have h₂ : s.Revises (s₁.removeRoom id) := h₁.trans (.same rfl)
  refine Out.all_ite (fun _ => ?_) (fun _ => Out.all_unwrap (fun first _ => ?_))
  all_goals
    generalize hs₃ : Server.broadcast (s₁.removeRoom id) (departed r p disconnected) _ none none = s₃
    have h₃ : s.Revises s₃ := by
      rw [← hs₃]
      exact h₂.trans (revises_broadcast _ _ none none)
    generalize hs₄ : (if ownerLost (departed r p disconnected) p then
      s₃.releaseMembers (departed r p disconnected).active.items else s₃) = s₄
    have h₄ : s.Revises s₄ := by
      rw [← hs₄]
      split
      · exact h₃.trans (revises_releaseMembers s₃ _)
      · exact h₃
  · exact Out.all_ite (fun _ => h₄.trans (revises_keep env s₄ _)) (fun _ => h₄.trans (revises_lobby s₄))
  · generalize (if ownerLost (departed r p disconnected) p then
      { departed r p disconnected with active := IndexSet.empty } else departed r p disconnected) = r₁
    refine h₄.trans (.trans ?_ ((revises_offerSeats _ _).trans (.same rfl)))
    split
    · exact Revises.trans (.same (t := s₄.record _) rfl) (revises_broadcast _ _ none none)
    · exact .refl s₄

theorem revises_disconnect (env : Env) (s : Server) (cid : Nat) : (s.disconnect env cid).All s.Revises := by
  unfold disconnect
  split
  · exact .refl s
  rename_i c _
  dsimp only
  generalize ht : ({ s with delayed := s.delayed.filter (fun d => decide (d.cid ≠ cid)),
                            connections := s.connections.shiftRemove cid } : Server) = t
  have h : s.Revises t := by
    rw [← ht]
    refine ⟨fun {x c'} hx => ⟨c', ?_, .refl⟩⟩
    change (s.connections.shiftRemove cid).get x = some c' at hx
    rw [IndexMap.get_shiftRemove] at hx
    split at hx
    · cases hx
    · exact hx
  split
  · exact h
  split
  · exact h
  rename_i pid _ _ p hp
  split
  · generalize hu : t.setPlayer pid { p with connection := none, offline := some env.now } = u
    have hset : s.Revises u := by
      rw [← hu]
      exact h.trans (.same rfl)
    have hl := revises_leave env u pid true
    generalize leave env u pid true = o at hl
    cases o with
    | ok v => exact hset.trans hl
    | err v => exact hset.trans hl
    | halt _ => trivial
  · exact h

/-! The methods of a room. -/

section Methods

variable (env : Env) (s : Server) (p : String) (r : Room)

/-- A room method's server is reached by edits. -/
abbrev RevisesRoom (s : Server) (sr : Server × Room) : Prop := s.Revises sr.1

theorem revises_ownerOnly {k : Out (Server × Room)} (h : k.All s.RevisesRoom) : (s.ownerOnly p r k).All s.RevisesRoom := by
  unfold ownerOnly
  split
  · exact revises_err s p _
  · exact h

theorem revises_session (m : String) (d : Value) : (s.session env p r m d).All s.RevisesRoom := by
  unfold session
  refine Out.all_ite (fun _ => revises_errorReply s p _ _) (fun _ => ?_)
  refine Out.all_ite (fun _ => revises_reply s p _ _) (fun _ => ?_)
  refine Out.all_ite (fun _ => ?_) (fun _ => ?_)
  · unfold getSessionChunk
    refine Out.all_unwrap (fun off _ => Out.all_ite (fun _ => revises_errorReply s p _ _) (fun _ => ?_))
    exact Out.all_unwrap (fun id _ => revises_bytes s p _)
  refine Out.all_ite (fun _ => revises_errorReply s p _ _) (fun _ => ?_)
  refine Out.all_ite (fun _ => ?_) (fun _ => ?_)
  · unfold beginSession
    refine Out.all_ite (fun _ => revises_errorReply s p _ _) (fun _ => Out.all_unwrap (fun size _ => ?_))
    refine Out.all_ite (fun _ => revises_errorReply s p _ _) (fun _ => Out.all_unwrap (fun id _ => ?_))
    exact Revises.trans (.same (t := s.record _) rfl) (revises_reply _ p _ _)
  · unfold commitSession
    dsimp only
    split
    · exact revises_errorReply s p _ _
    refine Out.all_unwrap (fun a _ => Out.all_unwrap (fun outsider _ => ?_))
    refine Out.all_ite (fun _ => revises_errorReply s p _ _) (fun _ => ?_)
    split
    · rename_i st _
      exact Revises.trans (.same (t := { s with store := st }) rfl) (revises_errorReply _ p _ _)
    · rename_i st _
      refine Revises.trans (Revises.trans ?_ (revises_reply _ p _ _)) (revises_broadcast _ _ _ _)
      exact .same rfl

theorem revises_pushDevices (notice : Value) (room event id : String) (online : Bool) :
    ∀ (ds : List (String × Value)) (s : Server), (pushDevices notice room event id online ds s).All s.Revises
  | [], s => .refl s
  | (device, d) :: ds, s => by
    unfold pushDevices
    split
    · exact revises_pushDevices notice room event id online ds s
    · refine Out.all_unwrap (fun token _ => ?_)
      dsimp only
      generalize ht : ({ s with legacyPushes := s.legacyPushes ++ [_], pushesInFlight := s.pushesInFlight + 1 } : Server) = t
      have hpush : s.Revises t := by rw [← ht]; exact .same rfl
      exact (revises_pushDevices notice room event id online ds t).mono (fun u h => hpush.trans h)

theorem revises_pushTargets (notice : Value) (room event p : String) :
    ∀ (vs : List Value) (s : Server), (pushTargets notice room event p vs s).All s.Revises
  | [], s => .refl s
  | v :: vs, s => by
    unfold pushTargets
    refine Out.all_unwrap (fun id _ => ?_)
    split
    · exact revises_pushTargets notice room event p vs s
    · split
      · exact revises_pushTargets notice room event p vs s
      · refine Out.all_andThen (revises_pushDevices _ _ _ _ _ _ s) (fun t ht => ?_) (fun t ht => ht)
        exact (revises_pushTargets notice room event p vs t).mono (fun u hu => Revises.trans ht hu)

theorem revises_notifyPlayers (d : Value) : (s.notifyPlayers env p r d).All s.RevisesRoom := by
  unfold notifyPlayers
  refine Out.all_ite (fun _ => revises_err s p _) (fun _ => revises_ownerOnly s p r ?_)
  refine Out.all_unwrap (fun outsider _ => Out.all_ite (fun _ => revises_err s p _) (fun _ => ?_))
  refine Out.all_unwrap (fun targets _ => Out.all_unwrap (fun event _ => ?_))
  refine Out.all_ite (fun _ => .refl s) (fun _ => Out.all_ite (fun _ => revises_err s p _) (fun _ => ?_))
  exact all_mapOut (revises_pushTargets d r.id event p targets s) (fun t ht => ht)

theorem revises_updateRoom (d : Value) : (s.updateRoom p r d).All s.RevisesRoom := by
  unfold updateRoom
  refine revises_ownerOnly s p r (Out.all_ite (fun _ => revises_err s p _) (fun _ => ?_))
  refine Out.all_ite (fun _ => revises_err s p _) (fun _ => Out.all_ite (fun _ => revises_err s p _) (fun _ => ?_))
  exact (revises_broadcast s _ none none).trans (revises_lobby _)

theorem revises_startGame (d : Value) : (s.startGame env p r d).All s.RevisesRoom := by
  unfold startGame
  refine revises_ownerOnly s p r (Out.all_ite (fun _ => revises_err s p _) (fun _ => ?_))
  obtain ⟨hrel, hmsg⟩ := revises_relay s p (v := gameStarted d)
  split
  · rename_i t hr
    rw [hr] at hrel
    exact hrel
  · rename_i t out hr
    rw [hr] at hrel hmsg
    refine Revises.trans (Revises.trans ?_ (revises_broadcastFrame _ _ none none (hmsg out rfl)))
      (revises_lobby _)
    exact Revises.trans hrel (.same rfl)

theorem revises_setRoomMeta (d : Value) : (s.setRoomMeta p r d).All s.RevisesRoom := by
  unfold setRoomMeta
  refine revises_ownerOnly s p r (Out.all_ite (fun _ => revises_err s p _) (fun _ => ?_))
  obtain ⟨hrel, hmsg⟩ := revises_relay s p (v := onSetRoomMeta d)
  split
  · rename_i t out hr
    rw [hr] at hrel hmsg
    exact hrel.trans (revises_broadcastFrame t _ none none (hmsg out rfl))
  · rename_i t hr
    rw [hr] at hrel
    exact hrel

theorem revises_roomMessage (m : String) (d : Value) : (s.roomMessage env p r m d).All s.RevisesRoom := by
  unfold roomMessage
  refine Out.all_ite (fun _ => revises_session env s p r m d) (fun _ => ?_)
  refine Out.all_ite (fun _ => revises_notifyPlayers env s p r d) (fun _ => ?_)
  refine Out.all_ite (fun _ => revises_updateRoom s p r d) (fun _ => ?_)
  refine Out.all_ite (fun _ => revises_relayTo s p r none none) (fun _ => ?_)
  refine Out.all_ite (fun _ => revises_relayTo s p r _ none) (fun _ => ?_)
  refine Out.all_ite (fun _ => revises_relayTo s p r none _) (fun _ => ?_)
  refine Out.all_ite (fun _ => ?_) (fun _ => ?_)
  · unfold requestGameState
    split
    · exact Out.all_unwrap (fun a _ => revises_send s _)
    · exact .refl s
  refine Out.all_ite (fun _ => revises_startGame env s p r d) (fun _ => ?_)
  refine Out.all_ite (fun _ => revises_ownerOnly s p r ?_) (fun _ => ?_)
  · exact revises_relayTo s p r _ _
  exact Out.all_ite (fun _ => revises_setRoomMeta s p r d) (fun _ => .refl s)

theorem revises_inRoom (m : String) (d : Value) : (s.inRoom env p m d).All s.Revises := by
  unfold inRoom
  refine Out.all_unwrap (fun player _ => ?_)
  split
  · exact revises_err s p _
  rename_i id _
  split
  · exact revises_err s p _
  rename_i r _
  refine all_mapOut (revises_roomMessage env (s.takeRoom id) p r m d) (fun sr h => ?_)
  exact Revises.trans (Revises.trans (.same (t := s.takeRoom id) rfl) h) (.same rfl)

/-! The methods of an account. -/

theorem revises_getSavedRooms : ∀ (ids : List Value) (s : Server), (getSavedRooms env p ids s).All s.Revises
  | [], s => .refl s
  | id :: ids, s => by
    unfold getSavedRooms
    refine Out.all_unwrap (fun key _ => ?_)
    split
    · exact .refl s
    · exact (revises_getSavedRooms ids _).mono (fun t ht => (revises_send s p).trans ht)

theorem revises_changeName (d : Value) : (s.changeName env p d).All s.Revises := by
  unfold changeName
  refine Out.all_unwrap (fun player hp => Out.all_unwrap (fun name _ => ?_))
  dsimp only
  have hset : s.Revises (s.setPlayer p { player with name := name }) := .same rfl
  generalize ({ player with name := name } : Player) = pl at *
  have hsave : ∀ st, s.Revises { s.setPlayer p pl with store := st } := fun st => hset.trans (.same rfl)
  split
  · exact hsave _
  · split
    · exact hsave _
    · exact (hsave _).trans (revises_broadcast _ _ none none)

theorem revises_setPushDevice (d : Value) : (s.setPushDevice env p d).All s.Revises := by
  unfold setPushDevice
  refine Out.all_ite (fun _ => revises_err s p _) (fun _ => ?_)
  refine Out.all_unwrap (fun device _ => Out.all_unwrap (fun player hp => ?_))
  dsimp only
  generalize ht : (if (d.idx "token").isNull then s.setPlayer p { player with devices := player.devices.shiftRemove device }
      else
        { s with players :=
          (s.players.mapVals (fun _ a => claimToken p device (d.idx "token") a)).modify p (fun a => registerDevice a device d)
            }) = t
  have hset : s.Revises t := by
    rw [← ht]
    split <;> exact .same rfl
  have hsave : ∀ st, s.Revises { t with store := st } := fun st => hset.trans (.same rfl)
  refine Out.all_unwrap (fun player' _ => ?_)
  split
  · exact hsave _
  · exact (hsave _).trans (revises_send _ p)

theorem revises_createRoom (d : Value) : (s.createRoom env p d).All s.Revises := by
  unfold createRoom
  refine Out.all_unwrap (fun player _ => Out.all_ite (fun _ => revises_err s p _) (fun _ => ?_))
  refine Out.all_ite (fun _ => revises_err s p _) (fun _ => ?_)
  refine Out.all_unwrap (fun name _ => Out.all_unwrap (fun max _ => ?_))
  unfold drawId
  refine Out.all_ite (fun _ => trivial) (fun _ => ?_)
  generalize ht : ({ s with draws := s.draws + 1, drawn := (env.uuid s.draws).text :: s.drawn } : Server) = t
  have hdraw : s.Revises t := by rw [← ht]; exact .same rfl
  refine Out.all_ite (fun _ => hdraw.trans (revises_err t p _)) (fun _ => ?_)
  refine Out.all_andThen (P := s.Revises) ?_ (fun u hu => ?_) (fun _ h => h)
  · refine (revises_enter env _ p _ (d.idx "password")).mono (fun u hu => ?_)
    exact (hdraw.trans (.same (t := (t.record _).setRoom _ _) rfl)).trans hu
  · exact Out.all_unwrap (fun r' _ => hu.trans (revises_lobby u))

/-- **Whatever an account asks for, connections change by edits.** -/
theorem revises_handle (cid : Nat) (v : Value) : (s.handle env cid p v).All s.Revises := by
  unfold handle
  refine Out.all_unwrap (fun m _ => ?_)
  dsimp only
  refine Out.all_ite (fun _ => ?_) (fun _ => ?_)
  · unfold openUdp
    refine Out.all_ite (fun _ => revises_err s p _) (fun _ => Out.all_unwrap (fun player _ => ?_))
    refine Out.all_ite (fun _ => revises_err s p _) (fun _ => Out.all_unwrap (fun c hc => ?_))
    have hdraw : s.Revises { s with draws := s.draws + 1 } := .same rfl
    exact Revises.trans (hdraw.trans (.setConnection hc (.single (.rekeyed c _)))) (revises_sendC _ cid)
  refine Out.all_ite (fun _ => ?_) (fun _ => ?_)
  · unfold closeUdp
    exact Out.all_unwrap (fun c hc => Revises.trans (.setConnection hc (.single (.rekeyed c none))) (revises_sendC _ cid))
  refine Out.all_ite (fun _ => ?_) (fun _ => ?_)
  · unfold pong
    refine Out.all_unwrap (fun c hc => ?_)
    split
    · exact .refl s
    · refine Out.all_ite (fun _ => Out.all_unwrap (fun player _ => ?_)) (fun _ => .refl s)
      exact Revises.trans (.setConnection hc (.single (.ponged c))) (.same rfl)
  refine Out.all_ite (fun _ => ?_) (fun _ => ?_)
  · unfold getRooms
    dsimp only
    split
    · exact revises_err s p _
    · exact revises_send s p
  refine Out.all_ite (fun _ => Out.all_unwrap (fun ids _ => revises_getSavedRooms env p ids s)) (fun _ => ?_)
  refine Out.all_ite (fun _ => ?_) (fun _ => ?_)
  · unfold getPlayers
    refine Out.all_unwrap (fun x _ => ?_)
    split
    · exact .refl s
    · exact revises_send s p
  refine Out.all_ite (fun _ => revises_changeName env s p _) (fun _ => ?_)
  refine Out.all_ite (fun _ => Out.all_unwrap (fun id _ => revises_enter env s p id _)) (fun _ => ?_)
  refine Out.all_ite (fun _ => revises_leave env s p false) (fun _ => ?_)
  refine Out.all_ite (fun _ => revises_setPushDevice env s p _) (fun _ => ?_)
  refine Out.all_ite (fun _ => ?_) (fun _ => ?_)
  · unfold getModerationTicket
    refine Out.all_unwrap (fun target _ => Out.all_unwrap (fun room _ => ?_))
    dsimp only
    exact Out.all_ite (fun _ => revises_errorReply s p _ _) (fun _ => revises_reply s p _ _)
  exact Out.all_ite (fun _ => revises_createRoom env s p _) (fun _ => revises_inRoom env s p m _)

end Methods

theorem revises_binary (env : Env) (s : Server) (p : String) (b : Bytes) : (s.binary env p b).All s.Revises := by
  unfold binary
  refine Out.all_unwrap (fun player hp => ?_)
  split
  · exact .refl s
  rename_i id hid
  split
  · exact .refl s
  rename_i r hr
  have htake : s.Revises (s.takeRoom id) := .same rfl
  refine Out.all_ite (fun _ => ?_) (fun _ => Out.all_ite (fun _ => revises_relayBytes s r p _ _) (fun _ => ?_))
  · refine all_mapOut (P := s.RevisesRoom) ?_ (fun sr h => Revises.trans h (.same rfl))
    unfold upload
    refine Out.all_ite (fun _ => htake) (fun _ => ?_)
    split
    · exact htake
    refine Out.all_unwrap (fun bid _ => Out.all_ite (fun _ => ?_) (fun _ => ?_))
    · exact htake.trans (revises_errorReply _ p _ _)
    · exact (htake.trans (.same (t := (s.takeRoom id).record _) rfl)).trans (revises_reply _ p _ _)
  · refine Out.all_ite (fun _ => revises_err s p _) (fun _ => ?_)
    exact Out.all_unwrap (fun sender _ => revises_relayBytes s r p _ _)

/-! Frames. -/

theorem revises_dispatch (env : Env) (s : Server) (cid : Nat) (frame : Frame) (parsed : Option Value) :
    (s.dispatch env cid frame parsed).All s.Revises := by
  unfold dispatch
  split
  · exact .refl s
  rename_i p _
  cases frame with
  | text t =>
    refine Out.all_unwrap (fun v _ => ?_)
    exact reportErr_all (revises_handle env s p cid v) (fun _ h => h) (fun t h => h.trans (revises_error t cid _))
  | binary b =>
    exact reportErr_all (revises_binary env s p b) (fun _ h => h) (fun t h => h.trans (revises_error t cid _))
  | ping _ => exact .refl s
  | pong _ => exact .refl s

/-- The delayed frames that a sweep runs. -/
theorem revises_runDelayed (env : Env) : ∀ (ds : List Delayed) (s : Server), (runDelayed env ds s).All s.Revises
  | [], s => .refl s
  | d :: ds, s => by
    unfold runDelayed
    split
    · have hqueue : s.Revises { s with delayed := s.delayed ++ [d] } := .same rfl
      exact (revises_runDelayed env ds { s with delayed := s.delayed ++ [d] }).mono (fun t ht => hqueue.trans ht)
    · split
      · exact revises_runDelayed env ds s
      · rename_i c hc
        dsimp only
        have hset : s.Revises (s.setConnection d.cid (unqueue d c)) := .setConnection hc (.single (.waiting c _ _))
        split
        · refine Out.all_andThen ((revises_dispatch env _ d.cid d.frame none).mono (fun t ht => hset.trans ht))
            (fun t ht => ?_) (fun _ h => h)
          exact (revises_runDelayed env ds t).mono (fun u hu => Revises.trans ht hu)
        · exact (revises_runDelayed env ds _).mono (fun t ht => hset.trans ht)

theorem revises_keepEmpty (env : Env) : ∀ (ids : List String) (s : Server), (keepEmpty env ids s).All s.Revises
  | [], s => .refl s
  | id :: ids, s => by
    unfold keepEmpty
    refine Out.all_unwrap (fun r _ => (revises_keepEmpty env ids _).mono (fun t ht => Revises.trans ?_ ht))
    exact Revises.trans (t := s.removeRoom id) (.same rfl) (revises_keep env _ r)

theorem revises_sweepRooms (env : Env) (s : Server) : (s.sweepRooms env).All s.Revises := by
  unfold sweepRooms
  dsimp only
  generalize ht : ({ s with rooms := s.rooms.mapVals (fun _ r => timeoutUpload env.now r) } : Server) = t
  have hrooms : s.Revises t := by rw [← ht]; exact .same rfl
  exact (revises_keepEmpty env _ t).mono (fun u hu => hrooms.trans hu)

end Server
end Relay
