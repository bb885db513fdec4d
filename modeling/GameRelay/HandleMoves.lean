import GameRelay.Moves
/-!
# HandleMoves — every message is one move

A room method does one `Edit` to the room it was handed (`RoomDone`), and every message and binary frame of an
authenticated connection makes one `Move` of the world, whatever it sends: `handle_move` and `binary_move`.
-/
namespace Relay

open Function (update)

variable [Extern]

namespace Server

/-! The methods that work on a room taken out of the map. -/

/-- A room method did one `Edit` to its room, and sent frames. -/
def RoomDone (s : Server) (p : String) (d : Value) (r : Room) (sr : Server × Room) : Prop :=
  ∃ es jobs, Edit s.config s.world.jobs p d r sr.2 es jobs ∧
    World.Sent { s.world with history := s.world.history ++ es, jobs := jobs } sr.1.world

omit [Extern] in
@[simp] theorem record_nil (s : Server) : s.record [] = s := by unfold record; rw [List.append_nil]

theorem RoomDone.sent {s t : Server} {p : String} {d : Value} {r : Room} (h : Sent s t) : RoomDone s p d r (t, r) :=
  ⟨[], s.world.jobs, .none, by rw [List.append_nil]; exact h.world⟩

theorem RoomDone.edit {s t : Server} {p : String} {d : Value} {r r' : Room} {es : List Event}
    (he : Edit s.config s.world.jobs p d r r' es s.world.jobs) (h : Sent (s.record es) t) : RoomDone s p d r (t, r') :=
  ⟨es, s.world.jobs, he, h.world⟩

theorem ownerOnly_done {s : Server} {p : String} {d : Value} {r : Room} {k : Out (Server × Room)}
    (h : r.owner = p → k.All (RoomDone s p d r)) : (s.ownerOnly p r k).All (RoomDone s p d r) := by
  unfold ownerOnly
  split
  · exact RoomDone.sent (sent_err s p _)
  · rename_i ho
    exact h (by simpa using ho)

theorem beginSession_done (env : Env) (s : Server) (p : String) (r : Room) (d : Value) (hp : r.persistent = true)
    (ho : r.owner = p) : (s.beginSession env p r d).All (RoomDone s p d r) := by
  unfold beginSession
  dsimp only
  split
  · exact RoomDone.sent (sent_errorReply s p _ _)
  · rename_i hrev
    obtain ⟨hrev, hgen⟩ := not_or.1 hrev
    refine Out.all_unwrap (fun size hsize => ?_)
    split
    · exact RoomDone.sent (sent_errorReply s p _ _)
    · rename_i hle
      refine Out.all_unwrap (fun id hid => ?_)
      exact RoomDone.edit (.began hp ho (by simpa using hrev) (by simpa using hgen) (Value.asStr_eq_some.1 hid)
        (by omega)) (sent_reply _ p _ _)

theorem commitSession_done (env : Env) (s : Server) (p : String) (r : Room) (d : Value) (hp : r.persistent = true)
    (ho : r.owner = p) : (s.commitSession env p r d).All (RoomDone s p d r) := by
  unfold commitSession
  dsimp only
  split
  · exact RoomDone.sent (sent_errorReply s p _ _)
  · rename_i u hu
    obtain ⟨hu, hc⟩ := Option.filter_eq_some_iff.1 hu
    refine Out.all_unwrap (fun a _ => Out.all_unwrap (fun outsider _ => ?_))
    split
    · exact RoomDone.sent (sent_errorReply s p _ _)
    · split
      · rename_i st hst
        obtain ⟨hr, hj⟩ := Store.commit_failed hst
        refine ⟨[], s.world.jobs, .none, ?_⟩
        rw [List.append_nil]
        have hw : ({ s with store := st } : Server).world = s.world :=
          World.ext' rfl rfl rfl (by show st.rooms.get = _; rw [hr]; rfl)
            (by show (fun id => (st.jobs.get id).getD []) = _; rw [hj]; rfl) rfl rfl rfl
        rw [← hw]
        exact (sent_errorReply _ p _ _).world
      · rename_i st hst
        obtain ⟨hr, hj⟩ := Store.commit_spec hst
        refine ⟨_, _, .commit hp ho hu hc, ?_⟩
        have hw : (({ s with store := st } : Server).record [.committed r.id p (r.revision + 1) u.bytes]).world =
            { s.world with
              history := s.world.history ++ [.committed r.id p (r.revision + 1) u.bytes]
              jobs := update s.world.jobs r.id
                (Store.commitJobs r.events (s.world.jobs r.id) (d.idx "scheduled") (d.idx "immediate")) } :=
          World.ext' rfl rfl rfl (by show st.rooms.get = _; rw [hr]; rfl) hj rfl rfl rfl
        rw [← hw]
        exact ((sent_reply _ p _ _).trans (sent_broadcast _ _ _ _ _)).world

theorem session_done (env : Env) (s : Server) (p : String) (r : Room) (m : String) (d : Value) :
    (s.session env p r m d).All (RoomDone s p d r) := by
  unfold session
  dsimp only
  split
  · exact RoomDone.sent (sent_errorReply s p _ _)
  rename_i hp
  have hp : r.persistent = true := by simpa using hp
  split
  · exact RoomDone.sent (sent_reply s p _ _)
  split
  · unfold getSessionChunk
    refine Out.all_unwrap (fun off _ => ?_)
    split
    · exact RoomDone.sent (sent_errorReply s p _ _)
    · exact Out.all_unwrap (fun id _ => RoomDone.sent (sent_bytes s p _))
  split
  · exact RoomDone.sent (sent_errorReply s p _ _)
  rename_i ho
  have ho : r.owner = p := by simpa using ho
  split
  · exact beginSession_done env s p r d hp ho
  · exact commitSession_done env s p r d hp ho


omit [Extern] in
theorem pushDevices_world (notice : Value) (room event id : String) (online : Bool) :
    ∀ (ds : List (String × Value)) (s : Server),
      (pushDevices notice room event id online ds s).All (fun t => t.world = s.world)
  | [], s => rfl
  | (device, d) :: ds, s => by
    unfold pushDevices
    split
    · exact pushDevices_world notice room event id online ds s
    · refine Out.all_unwrap (fun token _ => ?_)
      exact (pushDevices_world notice room event id online ds _).mono (fun t ht => ht)

omit [Extern] in
theorem pushTargets_world (notice : Value) (room event p : String) : ∀ (vs : List Value) (s : Server),
    (pushTargets notice room event p vs s).All (fun t => t.world = s.world)
  | [], s => rfl
  | v :: vs, s => by
    unfold pushTargets
    refine Out.all_unwrap (fun id _ => ?_)
    split
    · exact pushTargets_world notice room event p vs s
    · split
      · exact pushTargets_world notice room event p vs s
      · refine Out.all_andThen (pushDevices_world _ _ _ _ _ _ s) (fun t ht => ?_) (fun t ht => ht)
        exact (pushTargets_world notice room event p vs t).mono (fun u hu => hu.trans ht)

theorem notifyPlayers_done (env : Env) (s : Server) (p : String) (r : Room) (d : Value) :
    (s.notifyPlayers env p r d).All (RoomDone s p d r) := by
  unfold notifyPlayers
  split
  · exact RoomDone.sent (sent_err s p _)
  refine ownerOnly_done (fun ho => Out.all_unwrap (fun outsider _ => ?_))
  split
  · exact RoomDone.sent (sent_err s p _)
  refine Out.all_unwrap (fun targets _ => Out.all_unwrap (fun event _ => ?_))
  split
  · exact RoomDone.sent (.refl s)
  split
  · exact RoomDone.sent (sent_err s p _)
  refine all_mapOut (pushTargets_world d r.id event p targets s) (fun t ht => ?_)
  refine ⟨[], s.world.jobs, .pushed ho, ?_⟩
  rw [List.append_nil, ht]
  exact .refl _

theorem updateRoom_done (s : Server) (p : String) (r : Room) (d : Value) :
    (s.updateRoom p r d).All (RoomDone s p d r) := by
  unfold updateRoom
  refine ownerOnly_done (fun ho => ?_)
  split
  · exact RoomDone.sent (sent_err s p _)
  rename_i hst
  dsimp only
  split
  · exact RoomDone.sent (sent_err s p _)
  rename_i hsize
  split
  · exact RoomDone.sent (sent_err s p _)
  rename_i hfit
  refine RoomDone.edit (.settings ho (by simpa using hst) rfl (by omega) ⟨s, rfl, by simpa using hfit⟩) ?_
  rw [record_nil]
  exact (sent_broadcast s _ _ none none).trans (sent_lobby _ _)

theorem startGame_done (env : Env) (s : Server) (p : String) (r : Room) (d : Value) :
    (s.startGame env p r d).All (RoomDone s p d r) := by
  unfold startGame
  refine ownerOnly_done (fun ho => ?_)
  split
  · exact RoomDone.sent (sent_err s p _)
  rename_i hst
  have hrel := sent_relay s p (gameStarted d)
  split
  · rename_i s' hr
    rw [hr] at hrel
    exact RoomDone.sent hrel
  · rename_i s' out hr
    rw [hr] at hrel
    obtain ⟨hcore, hlinks⟩ := hrel
    refine RoomDone.edit (.started ho (by simpa using hst)) ?_
    have hrec : ∀ es, Sent (s.record es) (s'.record es) := fun es =>
      ⟨by show ({ s'.toCore with history := s'.toCore.history ++ es } : Core) = _; rw [hcore]; rfl, hlinks⟩
    exact (hrec _).trans ((sent_broadcastFrame _ _ _ none none).trans (sent_lobby _ _))

theorem setRoomMeta_done (s : Server) (p : String) (r : Room) (d : Value) :
    (s.setRoomMeta p r d).All (RoomDone s p d r) := by
  unfold setRoomMeta
  refine ownerOnly_done (fun ho => ?_)
  split
  · exact RoomDone.sent (sent_err s p _)
  rename_i hfit
  have hrel := sent_relay s p (onSetRoomMeta d)
  split
  · rename_i s' out hr
    rw [hr] at hrel
    refine RoomDone.edit (.metadata ho ⟨s, rfl, by simpa using hfit⟩) ?_
    rw [record_nil]
    exact hrel.trans (sent_broadcastFrame _ _ _ none none)
  · rename_i s' hr
    rw [hr] at hrel
    exact RoomDone.sent hrel

theorem roomMessage_done (env : Env) (s : Server) (p : String) (r : Room) (m : String) (d : Value) :
    (s.roomMessage env p r m d).All (RoomDone s p d r) := by
  unfold roomMessage
  refine Out.all_ite (fun _ => session_done env s p r m d) (fun _ => ?_)
  refine Out.all_ite (fun _ => notifyPlayers_done env s p r d) (fun _ => ?_)
  refine Out.all_ite (fun _ => updateRoom_done s p r d) (fun _ => ?_)
  refine Out.all_ite (fun _ => RoomDone.sent (sent_relayTo s p r _ none none)) (fun _ => ?_)
  refine Out.all_ite (fun _ => RoomDone.sent (sent_relayTo s p r _ (some p) none)) (fun _ => ?_)
  refine Out.all_ite (fun _ => RoomDone.sent (sent_relayTo s p r _ none _)) (fun _ => ?_)
  refine Out.all_ite (fun _ => ?_) (fun _ => ?_)
  · unfold requestGameState
    split
    · exact Out.all_unwrap (fun a _ => RoomDone.sent (sent_send s _ _))
    · exact RoomDone.sent (.refl s)
  refine Out.all_ite (fun _ => startGame_done env s p r d) (fun _ => ?_)
  refine Out.all_ite (fun _ => ownerOnly_done (fun _ => RoomDone.sent (sent_relayTo s p r _ _ _))) (fun _ => ?_)
  exact Out.all_ite (fun _ => setRoomMeta_done s p r d) (fun _ => RoomDone.sent (.refl s))

/-- **A room method, from the room taken out to the room put back, is one move.** -/
theorem inRoom_move (env : Env) (s : Server) (p m : String) (v : Value) :
    (s.inRoom env p m (v.idx "data")).All (fun t => Move (.text p v) s.world t.world) := by
  unfold inRoom
  refine Out.all_unwrap (fun player hp => ?_)
  split
  · exact Move.sent _ (sent_err s p _)
  rename_i id hid
  split
  · exact Move.sent _ (sent_err s p _)
  rename_i r hr
  refine all_mapOut (roomMessage_done env (s.takeRoom id) p r m (v.idx "data")) (fun sr h => ?_)
  obtain ⟨es, jobs, he, hs⟩ := h
  refine ⟨_, .edited ⟨⟨player.seat, seats_eq hp, hid⟩, hr⟩ he, ?_⟩
  have := hs.setRoom id sr.2
  rw [world_takeRoom] at this
  dsimp only at this
  rw [Function.update_idem, ← world_setRoom] at this
  exact this

/-! The methods that do not touch the rooms. -/

theorem openUdp_move (env : Env) (s : Server) (cid : Nat) (p : String) (v : Value) :
    (s.openUdp env cid p).All (fun t => Move (.text p v) s.world t.world) := by
  unfold openUdp
  split
  · exact Move.sent _ (sent_err s p _)
  refine Out.all_unwrap (fun player _ => ?_)
  split
  · exact Move.sent _ (sent_err s p _)
  refine Out.all_unwrap (fun c hc => ?_)
  refine Move.then_sent (.of_eq ?_) (sent_sendC _ cid _)
  rw [world_setConnection]
  exact .rekeyed (w := s.world) (links_get hc) (.inr ⟨_, _, rfl⟩)

/-- Changing what a link does not show of a connection is idle. -/
theorem setConnection_move {s : Server} {cid : Nat} {c c' : Connection} (hc : s.connections.get cid = some c)
    (hk : c.link.Keeps c'.link) (a : Act) : Move a s.world (s.setConnection cid c').world := by
  refine ⟨s.world, .idle _ _, ?_⟩
  rw [world_setConnection]
  exact ⟨_, _, .update (links_get hc) hk, List.Subset.refl _, rfl⟩

theorem closeUdp_move (s : Server) (cid : Nat) (p : String) (v : Value) :
    (s.closeUdp cid).All (fun t => Move (.text p v) s.world t.world) := by
  unfold closeUdp
  refine Out.all_unwrap (fun c hc => ?_)
  refine Move.then_sent (.of_eq ?_) (sent_sendC _ cid _)
  rw [world_setConnection]
  exact .rekeyed (w := s.world) (links_get hc) (.inl rfl)

theorem pong_move (env : Env) (s : Server) (cid : Nat) (p : String) (d : Value) (a : Act) :
    (s.pong env cid p d).All (fun t => Move a s.world t.world) := by
  unfold pong
  refine Out.all_unwrap (fun c hc => ?_)
  split
  · exact .idle _ _
  split
  · refine Out.all_unwrap (fun player hp => ?_)
    have hw : ∀ (t : Server) (rtt : Option Nat), t.players = s.players →
        (t.setPlayer p { player with rtt := rtt }).world = t.world := fun t rtt ht =>
      world_setPlayer_same (p := player) (by rw [ht]; exact hp) rfl
    show Move a s.world (Server.setPlayer _ p _).world
    rw [hw (s.setConnection cid _) _ rfl]
    refine setConnection_move hc ?_ a
    exact ⟨rfl, rfl, id, rfl, rfl⟩
  · exact .idle _ _

theorem getSavedRooms_sent (env : Env) (p : String) : ∀ (ids : List Value) (s : Server),
    (getSavedRooms env p ids s).All (fun t => Sent s t)
  | [], s => Sent.refl s
  | id :: ids, s => by
    unfold getSavedRooms
    refine Out.all_unwrap (fun key _ => ?_)
    split
    · exact Sent.refl s
    · exact (getSavedRooms_sent env p ids _).mono (fun t ht => (sent_send s p _).trans ht)

theorem getPlayers_move (env : Env) (s : Server) (p : String) (d : Value) (a : Act) :
    (s.getPlayers env p d).All (fun t => Move a s.world t.world) := by
  unfold getPlayers
  refine Out.all_unwrap (fun x _ => ?_)
  split
  · exact Move.idle a _
  · exact Move.sent a (sent_send s p _)

omit [Extern] in
/-- An account write shows in neither rooms nor jobs. -/
theorem world_saveAccount {env : Env} {s : Server} {p : Player} {st : Store} {ok : Bool}
    (h : s.store.saveAccount env.io p = (st, ok)) : ({ s with store := st } : Server).world = s.world := by
  have hf := Store.saveAccount_files env.io s.store p
  rw [h] at hf
  exact World.ext' rfl rfl rfl (congrArg IndexMap.get hf.1)
    (by show (fun id => (st.jobs.get id).getD []) = _; rw [hf.2.1]; rfl) rfl rfl rfl

theorem changeName_move (env : Env) (s : Server) (p : String) (d : Value) (a : Act) :
    (s.changeName env p d).All (fun t => Move a s.world t.world) := by
  unfold changeName
  refine Out.all_unwrap (fun player hp => Out.all_unwrap (fun name _ => ?_))
  dsimp only
  generalize hpl : ({ player with name := name } : Player) = pl
  have hw : (s.setPlayer p pl).world = s.world := world_setPlayer_same hp (by rw [← hpl]; rfl)
  split
  · rename_i st hst
    show Move a s.world (Server.world _)
    rw [world_saveAccount hst, hw]
    exact .idle _ _
  · rename_i st hst
    have hmove : Move a s.world ({ s.setPlayer p pl with store := st } : Server).world := by
      rw [world_saveAccount hst, hw]
      exact .idle _ _
    split
    · exact hmove
    · exact hmove.then_sent (sent_broadcast _ _ _ none none)

omit [Extern] in
theorem world_mapVals (s : Server) (f : String → Player → Player) (hf : ∀ id p, (f id p).seat = p.seat) :
    ({ s with players := s.players.mapVals f } : Server).world = s.world := by
  refine World.ext' rfl ?_ rfl rfl rfl rfl rfl rfl
  funext x
  show ((s.players.mapVals f).get x).map Player.seat = (s.players.get x).map Player.seat
  rw [IndexMap.get_mapVals, Option.map_map]
  exact congrArg (fun g => (s.players.get x).map g) (funext (hf x))

omit [Extern] in
theorem world_modify (s : Server) (k : String) (f : Player → Player) (hf : ∀ p, (f p).seat = p.seat) :
    ({ s with players := s.players.modify k f } : Server).world = s.world := by
  refine world_mapVals s _ (fun id p => ?_)
  split
  · exact hf p
  · rfl

theorem setPushDevice_move (env : Env) (s : Server) (p : String) (d : Value) (a : Act) :
    (s.setPushDevice env p d).All (fun t => Move a s.world t.world) := by
  unfold setPushDevice
  split
  · exact Move.sent a (sent_err s p _)
  refine Out.all_unwrap (fun device _ => Out.all_unwrap (fun player hp => ?_))
  have hw : (if (d.idx "token").isNull then s.setPlayer p { player with devices := player.devices.shiftRemove device }
      else
        let s : Server := { s with players := s.players.mapVals (fun _ a => claimToken p device (d.idx "token") a) }
        { s with players := s.players.modify p (fun a => registerDevice a device d) }).world = s.world := by
    split
    · exact world_setPlayer_same hp rfl
    · rw [world_modify _ p (fun a => registerDevice a device d) (fun _ => rfl)]
      exact world_mapVals s (fun _ a => claimToken p device (d.idx "token") a) (fun _ _ => rfl)
  dsimp only
  refine Out.all_unwrap (fun player' _ => ?_)
  split
  · rename_i st hst
    show Move a s.world (Server.world _)
    rw [world_saveAccount hst, hw]
    exact .idle _ _
  · rename_i st hst
    refine Move.then_sent ?_ (sent_send _ p _)
    rw [world_saveAccount hst, hw]
    exact .idle _ _

theorem getModerationTicket_move (env : Env) (s : Server) (p : String) (d : Value) (a : Act) :
    (s.getModerationTicket env p d).All (fun t => Move a s.world t.world) := by
  unfold getModerationTicket
  refine Out.all_unwrap (fun target _ => Out.all_unwrap (fun room _ => ?_))
  dsimp only
  split
  · exact Move.sent a (sent_errorReply s p _ _)
  · exact Move.sent a (sent_reply s p _ _)

theorem getRooms_sent (s : Server) (p : String) (d : Value) : Sent s (s.getRooms p d) := by
  unfold getRooms
  dsimp only
  split
  · exact sent_err s p _
  · exact sent_send s p _

/-! Creating a room. -/

omit [Extern] in
/-- A drawn identifier is new to the server. -/
theorem inUse_eq_false {s : Server} {id : String} (h : s.inUse id = false) :
    s.players.get id = none ∧ s.rooms.get id = none ∧ s.store.rooms.get id = none ∧ ∀ e ∈ s.history, e.room ≠ id := by
  unfold Core.inUse at h
  simp only [Bool.or_eq_false_iff, IndexMap.contains_eq_false, List.any_eq_false, decide_eq_true_eq] at h
  exact ⟨h.1.1.1.1.1.2, h.1.1.1.1.2, h.1.1.2, h.2⟩

omit [Extern] in
/-- A room that has not started, is not closed and has a place admits whoever knows its password. -/
theorem entryError_open {r : Room} {p : String} {pw : Value} (hs : r.started = false) (hc : r.closed = false)
    (hp : pw = r.password) (hm : r.active.size < r.max) : entryError r p pw = none := by
  unfold entryError
  rw [hs, hc, hp]
  simp only [Bool.not_false, Bool.and_false, Bool.false_and, Bool.false_eq_true, if_false, ne_eq, not_true_eq_false,
    decide_false]
  rw [if_neg (by omega)]

/-- An open room takes who asks. -/
theorem enter_found {env : Env} {s : Server} {p id : String} {pw : Value} {player : Player} {r : Room}
    (hp : s.players.get p = some player) (hroom : player.room = none) (hr : s.rooms.get id = some r)
    (he : entryError r p pw = none) : s.enter env p id pw = .ok (s.seatIn env p id player none r) := by
  unfold enter
  rw [hp]
  dsimp only [Out.unwrap]
  rw [hroom]
  dsimp only
  rw [if_pos (IndexMap.contains_iff.2 ⟨r, hr⟩)]
  dsimp only
  rw [hr]
  dsimp only
  rw [he]

theorem createRoom_move (env : Env) (s : Server) (p : String) (d v : Value) (hc : (s.connectionOf p).isSome)
    (hmax : ∀ n, (d.idx "maxPlayers").asU64 = some n → 1 ≤ n) :
    (s.createRoom env p d).All (fun t => Move (.text p v) s.world t.world) := by
  unfold createRoom
  refine Out.all_unwrap (fun player hp => ?_)
  have hconn : player.seat.connection.isSome := by
    unfold connectionOf at hc
    rw [hp] at hc
    exact hc
  split
  · exact Move.sent _ (sent_err s p _)
  rename_i hroom
  have hroom : player.room = none := by simpa using hroom
  split
  · exact Move.sent _ (sent_err s p _)
  rename_i hfree
  refine Out.all_unwrap (fun name _ => Out.all_unwrap (fun max hmax' => ?_))
  unfold drawId
  dsimp only
  split
  · trivial
  rename_i huse
  obtain ⟨hnp, hnr, hnf, hnh⟩ := inUse_eq_false (by simpa using huse)
  have hlow : lowerText (env.uuid s.draws).text = (env.uuid s.draws).text := lowerText_uuidText _
  generalize (env.uuid s.draws).text = id at *
  generalize hs₁ : ({ s with draws := s.draws + 1, drawn := id :: s.drawn } : Server) = s₁
  have hw₁ : s₁.world = s.world := by rw [← hs₁]; rfl
  have hpl : s₁.players = s.players := by rw [← hs₁]
  generalize hr : ({ Room.new id name p max (d.idx "password") (d.idx "gameData") env.now with
    binary := decide (d.idx "binaryRelay" = .bool true) } : Room) = r
  split
  · refine Move.then_sent ?_ (sent_err s₁ p _)
    rw [hw₁]
    exact .idle _ _
  rename_i hfit
  -- the room admits its creator: it is open, new and has a place
  generalize hs₂ : (s₁.record [.created id p]).setRoom id r = s₂
  have hget : s₂.rooms.get id = some r := by rw [← hs₂]; exact IndexMap.get_insert_self _ _ _
  have hentry : entryError r p (d.idx "password") = none := by
    rw [← hr]
    exact entryError_open rfl rfl rfl (hmax max hmax')
  have henter : s₂.enter env p id (d.idx "password") = .ok (s₂.seatIn env p id player none r) := by
    have hp₂ : s₂.players.get p = some player := by rw [← hs₂]; show s₁.players.get p = _; rw [hpl, hp]
    exact enter_found hp₂ hroom hget hentry
  rw [henter]
  show (Out.unwrap ((s₂.seatIn env p id player none r).rooms.get id) _).All _
  refine Out.all_unwrap (fun r' _ => ?_)
  refine Move.then_sent ?_ (sent_lobby _ _)
  have hev : entryEvents none r p = [] := by rw [← hr]; rfl
  have hadmit := admit_world env s₂ p id player none r
  rw [hev, List.append_nil, ← hs₂, world_setRoom, world_record, hw₁] at hadmit
  dsimp only at hadmit
  rw [Function.update_idem, hs₂] at hadmit
  exact ⟨_, .created (seats_eq hp) hconn hroom hnr hnf hnh hlow hr.symm (hmax max hmax')
    ⟨s₁, congrArg World.config hw₁, by simpa using hfit⟩ ⟨_, Nat.lt_of_not_le hfree, s.rooms.atMost⟩, hadmit⟩

/-! Messages and binary frames. -/

/-- **A message of an account's current connection is one move.** -/
theorem handle_move (env : Env) (s : Server) (cid : Nat) (p : String) (v : Value) {roomMax accounts : Nat}
    (hk : s.world.Keyed) (hc : (s.connectionOf p).isSome) (hv : Protocol.validate v roomMax accounts = true) :
    (s.handle env cid p v).All (fun t => Move (.text p v) s.world t.world) := by
  unfold handle
  refine Out.all_unwrap (fun m hm => ?_)
  refine Out.all_ite (fun _ => openUdp_move env s cid p v) (fun _ => ?_)
  refine Out.all_ite (fun _ => closeUdp_move s cid p v) (fun _ => ?_)
  refine Out.all_ite (fun _ => pong_move env s cid p _ _) (fun _ => ?_)
  refine Out.all_ite (fun _ => Move.sent _ (getRooms_sent s p _)) (fun _ => ?_)
  refine Out.all_ite (fun _ => Out.all_unwrap (fun ids _ =>
    (getSavedRooms_sent env p ids s).mono (fun t ht => Move.sent _ ht))) (fun _ => ?_)
  refine Out.all_ite (fun _ => getPlayers_move env s p _ _) (fun _ => ?_)
  refine Out.all_ite (fun _ => changeName_move env s p _ _) (fun _ => ?_)
  refine Out.all_ite (fun hm' => Out.all_unwrap (fun id hid => ?_)) (fun _ => ?_)
  · exact enter_move env s p id _ v hc (by rw [← hm']; exact Value.asStr_eq_some.1 hm) (Value.asStr_eq_some.1 hid) rfl
  refine Out.all_ite (fun _ => (leave_left env s p false hk).mono (fun t ht => ?_)) (fun _ => ?_)
  · obtain ⟨w, hl, hs⟩ := ht
    exact ⟨w, .left hl, hs⟩
  refine Out.all_ite (fun _ => setPushDevice_move env s p _ _) (fun _ => ?_)
  refine Out.all_ite (fun _ => getModerationTicket_move env s p _ _) (fun _ => ?_)
  refine Out.all_ite (fun hm' => ?_) (fun _ => inRoom_move env s p m v)
  exact createRoom_move env s p _ v hc (fun n hn => Protocol.createRoom_max hv (by rw [← hm']; exact hm) hn)

/-- **A binary frame is one move.** -/
theorem binary_move (env : Env) (s : Server) (p : String) (b : Bytes) :
    (s.binary env p b).All (fun t => Move (.binary p b) s.world t.world) := by
  unfold binary
  refine Out.all_unwrap (fun player hp => ?_)
  split
  · exact .idle _ _
  rename_i id hid
  split
  · exact .idle _ _
  rename_i r hr
  have hsits : s.world.Sits p id r := ⟨⟨player.seat, seats_eq hp, hid⟩, hr⟩
  split
  · rename_i hpb
    rw [Bool.and_eq_true] at hpb
    have hput : ∀ (t : Server) (r' : Room) (es : List Event), Sent ((s.takeRoom id).record es) t →
        World.Sent { s.world with rooms := update s.world.rooms id (some r'), history := s.world.history ++ es }
          (putBack id (t, r')).world := fun t r' es h => by
      have := h.world.setRoom id r'
      rw [world_record, world_takeRoom] at this
      dsimp only at this
      rw [Function.update_idem, ← world_setRoom] at this
      exact this
    have hsame : Move (.binary p b) s.world (putBack id (s.takeRoom id, r)).world := by
      have := hput (s.takeRoom id) r [] (by rw [record_nil]; exact .refl _)
      rw [List.append_nil, ← (show s.world.rooms id = some r from hr), Function.update_eq_self] at this
      exact ⟨_, .idle _ _, this⟩
    unfold upload
    split
    · exact hsame
    rename_i hlen
    split
    · exact hsame
    rename_i u hu
    refine all_mapOut (P := fun sr => Move (.binary p b) s.world (putBack id sr).world) ?_ (fun _ h => h)
    refine Out.all_unwrap (fun bid hbid => ?_)
    have hb : uploadShaped b = true := by
      rw [uploadShaped, Bool.and_eq_true]
      exact ⟨by simpa using (by omega : 22 ≤ b.length), hpb.2⟩
    split
    · rename_i hst
      refine ⟨_, .rejected hsits hpb.1 hb hu hbid hst, ?_⟩
      have := hput _ { r with upload := none } []
        (by rw [record_nil]; exact sent_errorReply (s.takeRoom id) p (.str u.id) "stale_session")
      rw [List.append_nil] at this
      exact this
    · rename_i hst
      exact ⟨_, .wrote hsits hpb.1 hb hu hbid (by simpa using hst), hput _ _ _ (sent_reply _ p _ _)⟩
  · split
    · exact Move.sent _ (sent_relayBytes s r p _ b)
    · split
      · exact Move.sent _ (sent_err s p _)
      · exact Out.all_unwrap (fun sender _ => Move.sent _ (sent_relayBytes s r p _ _))

end Server

end Relay
