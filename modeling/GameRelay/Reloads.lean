import GameRelay.JobFiles
import GameRelay.Pages
/-!
# Reloads — a started game can be loaded

`getSession` answers with the data its game was started with, in a longer envelope than the one `startGame` checked.
The data of every persistent room, live or on file, was on file before the run or was brought by a `startGame` of it
(`Run.origin`), and never changes.  So **a started game can be loaded when every `startGame` left room for the longer
envelope** (`started_games_load`).
-/
namespace Relay

open Function (update)

/-- The start data kept for a persistent room, live or on file. -/
def World.Has (w : World) (id : String) (d : Value) : Prop :=
  (∃ r, w.rooms id = some r ∧ r.persistent = true ∧ r.start = d) ∨
    ∃ k hd st, w.files k = some (.record hd st) ∧ hd.idx "roomId" = .str id ∧ hd.idx "startData" = d

/-- Every start data kept was kept already. -/
def World.Inherits (w w' : World) : Prop := ∀ id d, w'.Has id d → w.Has id d

/-- What a room keeps of its start, or it is not persistent. -/
def Room.Inherits (r r' : Room) : Prop := r'.persistent = true → r.persistent = true ∧ r'.start = r.start

namespace Room.Inherits

variable {r r' r'' : Room}

theorem of_eq (hp : r'.persistent = r.persistent) (hs : r'.start = r.start) : r.Inherits r' := fun h => ⟨hp ▸ h, hs⟩

theorem refl (r : Room) : r.Inherits r := of_eq rfl rfl

theorem trans (h : r.Inherits r') (h' : r'.Inherits r'') : r.Inherits r'' := fun hp =>
  ⟨(h (h' hp).1).1, (h' hp).2.trans (h (h' hp).1).2⟩

theorem departed (r : Room) (p : String) (d : Bool) : r.Inherits (Server.departed r p d) := by
  refine of_eq (departed_keeps r p d).2.2.2 ?_
  unfold Server.departed
  dsimp only
  repeat' split
  all_goals rfl

theorem remains (r : Room) (p : String) (d : Bool) : r.Inherits (Relay.remains r p d) := by
  unfold Relay.remains
  split
  · exact (departed r p d).trans (of_eq rfl rfl)
  · exact departed r p d

theorem handedOver (r : Room) (p first : String) : r.Inherits (Relay.handedOver r p first) := by
  unfold Relay.handedOver
  split
  · exact of_eq rfl rfl
  · exact refl r

theorem joined (r : Room) (p : String) : r.Inherits (Server.joined r p) := by
  unfold Server.joined
  dsimp only
  split <;> exact of_eq rfl rfl

theorem timeoutUpload (r : Room) (now : Nat) : r.Inherits (Server.timeoutUpload now r) := by
  unfold Server.timeoutUpload
  split
  · exact of_eq rfl rfl
  · exact refl r

end Room.Inherits

namespace World.Inherits

variable {w w' w'' : World}

theorem refl (w : World) : w.Inherits w := fun _ _ h => h

theorem trans (h : w.Inherits w') (h' : w'.Inherits w'') : w.Inherits w'' := fun id d hd => h id d (h' id d hd)

/-- Every live room was there, or on file. -/
theorem of_rooms (hr : ∀ id r', w'.rooms id = some r' → r'.persistent = true → w.Has id r'.start)
    (hf : w'.files = w.files) : w.Inherits w' := by
  rintro id d (⟨r, hr', hp, rfl⟩ | ⟨k, hd, st, hk, hid, hs⟩)
  · exact hr id r hr' hp
  · exact .inr ⟨k, hd, st, hf ▸ hk, hid, hs⟩

theorem same (hr : w'.rooms = w.rooms) (hf : w'.files = w.files) : w.Inherits w' :=
  of_rooms (fun _ r h hp => .inl ⟨r, hr ▸ h, hp, rfl⟩) hf

/-- One live room changes, or is gone. -/
theorem room {id : String} {o : Option Room} (ho : ∀ r', o = some r' → r'.persistent = true → w.Has id r'.start)
    (hr : w'.rooms = update w.rooms id o) (hf : w'.files = w.files) : w.Inherits w' := by
  refine of_rooms (fun x r' hx hp => ?_) hf
  rw [hr] at hx
  rcases update_some hx with ⟨rfl, h⟩ | ⟨-, h⟩
  · exact ho r' h hp
  · exact .inl ⟨r', h, hp, rfl⟩

theorem edit {id : String} {r r' : Room} (h : w.rooms id = some r) (hi : r.Inherits r')
    (hr : w'.rooms = update w.rooms id (some r')) (hf : w'.files = w.files) : w.Inherits w' :=
  room (fun r'' he hp => by cases he; exact .inl ⟨r, h, (hi hp).1, (hi hp).2.symm⟩) hr hf

theorem mapRooms {f : Room → Room} (hi : ∀ r : Room, r.Inherits (f r)) (hr : w'.rooms = fun x => (w.rooms x).map f)
    (hf : w'.files = w.files) : w.Inherits w' := by
  refine of_rooms (fun x r' hx hp => ?_) hf
  rw [hr] at hx
  obtain ⟨r, hr, rfl⟩ := Option.map_eq_some_iff.1 hx
  exact .inl ⟨r, hr, (hi r hp).1, (hi r hp).2.symm⟩

theorem sent (h : w.Sent w') : w.Inherits w' := by
  obtain ⟨l, q, -, -, rfl⟩ := h
  exact same rfl rfl

/-- A room goes to its file. -/
theorem sleeps {w₀ : World} {r : Room} (h : w.Sleeps r w') (hw : w₀.Inherits w) (hr : w₀.Has r.id r.start) :
    w₀.Inherits w' := by
  cases h with
  | mk gone cleared hlive hc hf =>
    rintro id d (⟨r', hr', hp, rfl⟩ | ⟨k, hd, st, hk, hid, rfl⟩)
    · exact hw id _ (.inl ⟨r', hr', hp, rfl⟩)
    · dsimp only at hk
      split at hk
      · cases hk
      · rw [Function.update_apply] at hk
        split at hk
        · cases hk
          obtain rfl : r.id = id := Value.str.inj hid
          exact hr
        · exact hw id _ (.inr ⟨k, hd, st, hk, hid, rfl⟩)

theorem dropSeats {p x : String} {d : Bool} {r : Room} (h : dropSeats w.rooms p d x = some r) (hp : r.persistent = true) :
    w.Has x r.start := by
  obtain ⟨r₀, hr₀, rfl | rfl⟩ := dropSeats_some h
  · exact .inl ⟨_, hr₀, hp, rfl⟩
  · exact .inl ⟨_, hr₀, hp, rfl⟩

theorem left {p : String} {d : Bool} (h : w.Left p d w') (hk : ∀ {id r}, w.rooms id = some r → r.id = id) :
    w.Inherits w' := by
  have hset : ∀ {id : String} {o : Option Room} {w₁ : World},
      (∀ r', o = some r' → r'.persistent = true → w.Has id r'.start) →
      w₁.rooms = update (Relay.dropSeats w.rooms p d) id o → w₁.files = w.files → w.Inherits w₁ := by
    intro id o w₁ ho hr hf
    refine of_rooms (fun x r' hx hp => ?_) hf
    rw [hr] at hx
    rcases update_some hx with ⟨rfl, h⟩ | ⟨-, h⟩
    · exact ho r' h hp
    · exact dropSeats h hp
  have hold : ∀ {id : String} {r r' : Room}, Relay.dropSeats w.rooms p d id = some r → r.Inherits r' →
      r'.persistent = true → w.Has id r'.start := by
    intro id r r' hr hi hp
    rw [(hi hp).2]
    exact dropSeats hr (hi hp).1
  cases h with
  | nowhere hq hr => exact of_rooms (fun x r' hx hp => dropSeats hx hp) rfl
  | deleted hq hid hr he hp => exact hset (o := none) (fun _ h => nomatch h) rfl rfl
  | slept hq hid hr he hp hs =>
    rename_i q id r
    have hrem : (remains r p d).persistent = true := (remains_keeps _ _ _).2.2.2.trans hp
    obtain ⟨r₀, hr₀, hr'⟩ := dropSeats_some hr
    have hkey : (remains r p d).id = id := by
      rw [(remains_keeps _ _ _).1, ← hk hr₀]
      rcases hr' with rfl | rfl <;> rfl
    refine sleeps hs (hset (o := none) (fun _ h => nomatch h) rfl rfl) ?_
    rw [hkey]
    exact hold hr (Room.Inherits.remains r p d) hrem
  | kept hq hid hr he hp =>
    refine hset (fun r' h hp' => ?_) rfl rfl
    cases h
    exact hold hr (Room.Inherits.remains _ p d) hp'
  | stayed hq hid hr hf =>
    refine hset (fun r' h hp' => ?_) rfl rfl
    cases h
    exact hold hr ((Room.Inherits.remains _ p d).trans (Room.Inherits.handedOver _ _ _)) hp'

end World.Inherits

variable [Extern]

/-- An edit by data that does not ask for persistence starts no persistent game. -/
theorem Edit.inherits {c : Config} {jobs jobs' : String → List Value} {p : String} {d : Value} {r r' : Room}
    {es : List Event} (h : Edit c jobs p d r r' es jobs') (hd : d.idx "persistent" ≠ .bool true) : r.Inherits r' := by
  cases h with
  | none => exact .refl r
  | settings ho hs hmax hsize hfit =>
    unfold joinClosed
    split <;> exact .of_eq rfl rfl
  | started ho hs =>
    intro hp
    unfold startedRoom at hp
    simp only [Bool.and_eq_true, decide_eq_true_eq] at hp
    exact absurd hp.2 hd
  | metadata => exact .of_eq rfl rfl
  | pushed => exact .of_eq rfl rfl
  | began => exact .of_eq rfl rfl
  | commit => exact .of_eq rfl rfl

/-- **Start data is only brought by a message that asks for persistence.** -/
theorem Effect.inherits {a : Act} {w w' : World} (h : Effect a w w') (hk : w.Keyed)
    (ha : ∀ p v, a = .text p v → (v.idx "data").idx "persistent" ≠ .bool true) : w.Inherits w' := by
  cases h with
  | idle => exact .refl w
  | connected h => exact .same rfl rfl
  | unlinked hl hq => exact .same rfl rfl
  | queued hd => exact .same rfl rfl
  | gone hl hp hq hc h =>
    have hleft := World.Inherits.left h hk.rooms
    exact fun id d hd => hleft id d hd
  | expired hq hc hf => exact .mapRooms (f := Room.dropReservation _) (fun r => .of_eq rfl rfl) rfl rfl
  | bound hl hp hq => exact .same rfl rfl
  | recalled hl hp => exact .same rfl rfl
  | rekeyed hl hu => exact .same rfl rfl
  | departed h => exact World.Inherits.left h hk.rooms
  | left h => exact World.Inherits.left h hk.rooms
  | entered hq hc hr hf he =>
    refine World.Inherits.room (fun r' h hp => ?_) rfl rfl
    cases h
    obtain ⟨hp, hs⟩ := Room.Inherits.joined _ _ hp
    rw [hs]
    rcases hf with ⟨-, hr⟩ | ⟨-, -, now, hd, st, hfile, hid, -, rfl⟩
    · exact .inl ⟨_, hr, hp, rfl⟩
    · exact .inr ⟨_, hd, st, hfile, hid, rfl⟩
  | refused hm hid hpw hq hroom hr ha hp he => exact World.Inherits.room (o := none) (fun _ h => nomatch h) rfl rfl
  | created hq hc hr hid hfile hhist hlow hroom hmax hfit =>
    refine World.Inherits.room (fun r' h hp => ?_) rfl rfl
    cases h
    obtain ⟨hp, -⟩ := Room.Inherits.joined _ _ hp
    subst hroom
    cases hp
  | edited hsit he => exact .edit hsit.2 (he.inherits (ha _ _ rfl)) rfl rfl
  | wrote hsit hp hb hu hid hst =>
    refine .edit hsit.2 ?_ rfl rfl
    exact .of_eq rfl rfl
  | rejected hsit hp hb hu hid hst =>
    refine .edit hsit.2 ?_ rfl rfl
    exact .of_eq rfl rfl
  | timedOut => exact .mapRooms (fun r => .timeoutUpload r _) rfl rfl
  | slept hr hp ha h =>
    refine World.Inherits.sleeps h (World.Inherits.room (o := none) (fun _ h => nomatch h) rfl rfl) ?_
    rw [hk.rooms hr]
    exact .inl ⟨_, hr, hp, rfl⟩

theorem Move.inherits {a : Act} {w w' : World} (h : Move a w w') (hk : w.Keyed)
    (ha : ∀ p v, a = .text p v → (v.idx "data").idx "persistent" ≠ .bool true) : w.Inherits w' := by
  obtain ⟨w₁, he, hs⟩ := h
  exact (he.inherits hk ha).trans (.sent hs)

namespace Server

/-- The data asks for a persistent game. -/
def Asked (d : Value) : Prop :=
  d.idx "fixedRoster" = .bool true ∧ d.idx "hostMigration" = .bool true ∧ d.idx "persistent" = .bool true

/-- The message starts a persistent game in its sender's room. -/
structure Starts (t : Server) (p id : String) (v : Value) : Prop where
  method : v.idx "method" = .str "startGame"
  enabled : t.store.enabled = true
  asked : Asked (v.idx "data")
  room : ∃ r, t.world.Sits p id r ∧ r.owner = p ∧ r.started = false

omit [Extern] in
theorem startedRoom_kept {enabled : Bool} {r : Room} {d : Value} {now : Nat}
    (h : (startedRoom enabled r d now).persistent = true) :
    enabled = true ∧ Asked d ∧ (startedRoom enabled r d now).start = d := by
  have hstart : (startedRoom enabled r d now).start = if (startedRoom enabled r d now).persistent then d else .null := rfl
  rw [if_pos h] at hstart
  unfold startedRoom at h
  simp only [Bool.and_eq_true, decide_eq_true_eq] at h
  obtain ⟨⟨he, hf, hm⟩, hp⟩ := h
  exact ⟨he, ⟨hf, hm, hp⟩, hstart⟩

/-- What a room method leaves of the room's start, or the persistent game it started. -/
def StartKept (s : Server) (p m : String) (d : Value) (r : Room) (sr : Server × Room) : Prop :=
  r.Inherits sr.2 ∨
    (m = "startGame" ∧ s.store.enabled = true ∧ Asked d ∧ r.owner = p ∧ r.started = false ∧ sr.2.start = d)

section Methods

variable (env : Env) (s : Server) (p m : String) (r : Room) (d : Value)

theorem session_kept : (s.session env p r m d).All (fun sr => r.Inherits sr.2) := by
  unfold session
  refine Out.all_ite (fun _ => .refl r) (fun _ => Out.all_ite (fun _ => .refl r) (fun _ => ?_))
  refine Out.all_ite (fun _ => ?_) (fun _ => Out.all_ite (fun _ => .refl r) (fun _ => ?_))
  · unfold getSessionChunk
    refine Out.all_unwrap (fun off _ => Out.all_ite (fun _ => .refl r) (fun _ => ?_))
    exact Out.all_unwrap (fun _ _ => .refl r)
  refine Out.all_ite (fun _ => ?_) (fun _ => ?_)
  · unfold beginSession
    refine Out.all_ite (fun _ => .refl r) (fun _ => Out.all_unwrap (fun size _ => ?_))
    exact Out.all_ite (fun _ => .refl r) (fun _ => Out.all_unwrap (fun _ _ => .of_eq rfl rfl))
  · unfold commitSession
    dsimp only
    split
    · exact .refl r
    refine Out.all_unwrap (fun _ _ => Out.all_unwrap (fun _ _ => Out.all_ite (fun _ => .refl r) (fun _ => ?_)))
    split
    · exact .refl r
    · exact .of_eq rfl rfl

theorem ownerOnly_kept {P : Room → Prop} {k : Out (Server × Room)} (hr : P r)
    (hk : r.owner = p → k.All (fun sr => P sr.2)) : (s.ownerOnly p r k).All (fun sr => P sr.2) := by
  unfold ownerOnly
  exact Out.all_ite (fun _ => hr) (fun h => hk (not_not.1 h))

theorem notifyPlayers_kept : (s.notifyPlayers env p r d).All (fun sr => r.Inherits sr.2) := by
  unfold notifyPlayers
  refine Out.all_ite (fun _ => .refl r) (fun _ => ownerOnly_kept s p r (.refl r) (fun _ => ?_))
  refine Out.all_unwrap (fun _ _ => ?_)
  refine Out.all_ite (fun _ => .refl r) (fun _ => Out.all_unwrap (fun _ _ => Out.all_unwrap (fun event _ => ?_)))
  refine Out.all_ite (fun _ => .refl r) (fun _ => Out.all_ite (fun _ => .refl r) (fun _ => ?_))
  exact all_mapOut (P := fun _ => True) (Out.all_iff_state.2 (fun _ _ => trivial)) (fun _ _ => .of_eq rfl rfl)

theorem updateRoom_kept : (s.updateRoom p r d).All (fun sr => r.Inherits sr.2) := by
  unfold updateRoom
  refine ownerOnly_kept s p r (.refl r) (fun _ => Out.all_ite (fun _ => .refl r) (fun _ => ?_))
  refine Out.all_ite (fun _ => .refl r) (fun _ => Out.all_ite (fun _ => .refl r) (fun _ => ?_))
  show r.Inherits (joinClosed (settings r _ d) d)
  unfold joinClosed
  split <;> exact .of_eq rfl rfl

theorem setRoomMeta_kept : (s.setRoomMeta p r d).All (fun sr => r.Inherits sr.2) := by
  unfold setRoomMeta
  refine ownerOnly_kept s p r (.refl r) (fun _ => Out.all_ite (fun _ => .refl r) (fun _ => ?_))
  split
  · exact .of_eq rfl rfl
  · exact .refl r

theorem startGame_kept : (s.startGame env p r d).All (s.StartKept p "startGame" d r) := by
  unfold startGame ownerOnly
  refine Out.all_ite (fun _ => .inl (.refl r)) (fun ho => Out.all_ite (fun _ => .inl (.refl r)) (fun hs => ?_))
  have hcore := relay_toCore s p (gameStarted d)
  split
  · exact .inl (.refl r)
  · rename_i s' out hrel
    rw [hrel] at hcore
    show s.StartKept p "startGame" d r (_, startedRoom s'.store.enabled r d env.now)
    by_cases hp : (startedRoom s'.store.enabled r d env.now).persistent = true
    · obtain ⟨he, hd, hstart⟩ := startedRoom_kept hp
      refine .inr ⟨rfl, ?_, hd, not_not.1 ho, eq_false_of_ne_true hs, hstart⟩
      rw [← he]
      exact (congrArg (fun c : Core => c.store.enabled) hcore).symm
    · exact .inl (fun h => absurd h hp)

/-- **Only `startGame` starts a persistent game.** -/
theorem roomMessage_kept : (s.roomMessage env p r m d).All (s.StartKept p m d r) := by
  have inl : ∀ {o : Out (Server × Room)}, o.All (fun sr => r.Inherits sr.2) → o.All (s.StartKept p m d r) :=
    fun h => h.mono (fun _ hr => .inl hr)
  unfold roomMessage
  refine Out.all_ite (fun _ => inl (session_kept env s p m r d)) (fun _ => ?_)
  refine Out.all_ite (fun _ => inl (notifyPlayers_kept env s p r d)) (fun _ => ?_)
  refine Out.all_ite (fun _ => inl (updateRoom_kept s p r d)) (fun _ => ?_)
  refine Out.all_ite (fun _ => .inl (.refl r)) (fun _ => Out.all_ite (fun _ => .inl (.refl r)) (fun _ => ?_))
  refine Out.all_ite (fun _ => .inl (.refl r)) (fun _ => Out.all_ite (fun _ => ?_) (fun _ => ?_))
  · unfold requestGameState
    exact Out.all_ite (fun _ => Out.all_unwrap (fun _ _ => .inl (.refl r))) (fun _ => .inl (.refl r))
  refine Out.all_ite (fun hm => hm ▸ startGame_kept env s p r d) (fun _ => Out.all_ite (fun _ => ?_) (fun _ => ?_))
  · exact inl (ownerOnly_kept s p r (.refl r) (fun _ => .refl r))
  · exact Out.all_ite (fun _ => inl (setRoomMeta_kept s p r d)) (fun _ => .inl (.refl r))

end Methods

/-- The start data kept after a message was kept before, or the message brought it. -/
def Conveys (s : Server) (p : String) (v : Value) (u : Server) : Prop :=
  ∀ id d, u.world.Has id d → s.world.Has id d ∨ (s.Starts p id v ∧ d = v.idx "data")

omit [Extern] in
theorem Conveys.of_inherits {s u : Server} {p : String} {v : Value} (h : s.world.Inherits u.world) : s.Conveys p v u :=
  fun id d hd => .inl (h id d hd)

theorem inRoom_conveys (env : Env) (s : Server) (p m : String) (v : Value) (hm : v.idx "method" = .str m) :
    (s.inRoom env p m (v.idx "data")).All (s.Conveys p v) := by
  have sent : ∀ code, s.Conveys p v (s.err p code) := fun code => .of_inherits (.sent (sent_err s p code).world)
  unfold inRoom
  refine Out.all_unwrap (fun player hp => ?_)
  split
  · exact sent _
  rename_i id hid
  split
  · exact sent _
  rename_i r hr
  have hboth : ((s.takeRoom id).roomMessage env p r m (v.idx "data")).All (fun sr =>
      RoomDone (s.takeRoom id) p (v.idx "data") r sr ∧ (s.takeRoom id).StartKept p m (v.idx "data") r sr) :=
    Out.all_iff_state.2 (fun sr h => ⟨Out.all_of_state (roomMessage_done env (s.takeRoom id) p r m _) h,
      Out.all_of_state (roomMessage_kept env (s.takeRoom id) p m r _) h⟩)
  refine all_mapOut hboth (fun sr ⟨⟨es, jobs, he, hsent⟩, hkept⟩ x d hd => ?_)
  obtain ⟨links, queue, -, -, hw⟩ := hsent
  have hrooms : (putBack id sr).world.rooms = update s.world.rooms id (some sr.2) := by
    unfold putBack
    rw [world_setRoom, hw, world_takeRoom]
    dsimp only
    rw [Function.update_idem]
  have hfiles : (putBack id sr).world.files = s.world.files := by
    unfold putBack
    rw [world_setRoom, hw, world_takeRoom]
  rcases hd with ⟨r', hr', hper, rfl⟩ | ⟨k, hd, st, hk, hroom, hs⟩
  · rw [hrooms] at hr'
    rcases update_some hr' with ⟨rfl, h⟩ | ⟨-, h⟩
    · cases h
      rcases hkept with hi | ⟨rfl, hen, hask, ho, hst, hstart⟩
      · exact .inl (.inl ⟨r, hr, (hi hper).1, (hi hper).2.symm⟩)
      · exact .inr ⟨⟨hm, hen, hask, r, ⟨⟨player.seat, seats_eq hp, hid⟩, hr⟩, ho, hst⟩, hstart⟩
    · exact .inl (.inl ⟨r', h, hper, rfl⟩)
  · exact .inl (.inr ⟨k, hd, st, hfiles ▸ hk, hroom, hs⟩)

/-- An `enterRoom` that brings no start data. -/
def entering (id : String) (pw : Value) : Value :=
  .obj [("method", .str "enterRoom"), ("data", .obj [("roomId", .str id), ("password", pw)])]

/-- **The start data kept after a message was kept before it**, unless it starts a persistent game. -/
theorem handle_conveys (env : Env) (s : Server) (cid : Nat) (p : String) (v : Value) {roomMax accounts : Nat}
    (hk : s.world.Keyed) (hc : (s.connectionOf p).isSome) (hv : Protocol.validate v roomMax accounts = true) :
    (s.handle env cid p v).All (s.Conveys p v) := by
  have quiet : ∀ {u : Server}, Move .quiet s.world u.world → s.Conveys p v u := fun h =>
    .of_inherits (h.inherits hk (fun _ _ h => nomatch h))
  have blank : ∀ {u : Server}, Move (.text p .null) s.world u.world → s.Conveys p v u := fun h =>
    .of_inherits (h.inherits hk (fun _ _ h => by cases h; exact (nomatch ·)))
  unfold handle
  refine Out.all_unwrap (fun m hm => ?_)
  refine Out.all_ite (fun _ => (openUdp_move env s cid p .null).mono (fun _ h => blank h)) (fun _ => ?_)
  refine Out.all_ite (fun _ => (closeUdp_move s cid p .null).mono (fun _ h => blank h)) (fun _ => ?_)
  refine Out.all_ite (fun _ => (pong_move env s cid p _ .quiet).mono (fun _ h => quiet h)) (fun _ => ?_)
  refine Out.all_ite (fun _ => quiet (Move.sent _ (getRooms_sent s p _))) (fun _ => ?_)
  refine Out.all_ite (fun _ => Out.all_unwrap (fun ids _ =>
    (getSavedRooms_sent env p ids s).mono (fun _ h => quiet (Move.sent _ h)))) (fun _ => ?_)
  refine Out.all_ite (fun _ => (getPlayers_move env s p _ .quiet).mono (fun _ h => quiet h)) (fun _ => ?_)
  refine Out.all_ite (fun _ => (changeName_move env s p _ .quiet).mono (fun _ h => quiet h)) (fun _ => ?_)
  refine Out.all_ite (fun _ => Out.all_unwrap (fun id _ => ?_)) (fun _ => ?_)
  · refine (enter_move env s p id _ (entering id _) hc rfl rfl rfl).mono (fun _ h => .of_inherits (h.inherits hk ?_))
    intro _ _ he
    cases he
    exact (nomatch ·)
  refine Out.all_ite (fun _ => (leave_left env s p false hk).mono (fun u hu => ?_)) (fun _ => ?_)
  · obtain ⟨w, hl, hs⟩ := hu
    exact blank ⟨w, .left hl, hs⟩
  refine Out.all_ite (fun _ => (setPushDevice_move env s p _ .quiet).mono (fun _ h => quiet h)) (fun _ => ?_)
  refine Out.all_ite (fun _ => (getModerationTicket_move env s p _ .quiet).mono (fun _ h => quiet h)) (fun _ => ?_)
  refine Out.all_ite (fun hm' => ?_) (fun _ => inRoom_conveys env s p m v (Value.asStr_eq_some.1 hm))
  exact (createRoom_move env s p _ .null hc (fun n hn => Protocol.createRoom_max hv (by rw [← hm']; exact hm) hn)).mono
    (fun _ h => blank h)

/-- The command executes a message that starts a persistent game in the room, with this data. -/
def Brings (env : Env) (s : Server) (c : Command) (id : String) (d : Value) : Prop :=
  ∃ t cid txt m p v, s.Executes env c t cid (.text txt) ∧ t.Valid txt v m ∧ t.Speaks cid p ∧ t.Starts p id v ∧
    d = v.idx "data"

theorem Played.has {env : Env} {s : Server} {c : Command} {a : Act} {w w' : World} (h : s.Played env c a w w')
    (hk : w.Keyed) {id : String} {d : Value} (hd : w'.Has id d) : w.Has id d ∨ s.Brings env c id d := by
  obtain ⟨hmove, hhandles⟩ := h
  by_cases ha : ∃ p v, a = .text p v
  · obtain ⟨p, v, rfl⟩ := ha
    obtain ⟨t, cid, txt, m, u, he, hv, hp, rfl, hu, hsent⟩ := hhandles
    have hc : (t.connectionOf p).isSome := by rw [hp.2]; rfl
    have hconveys := Out.all_of_state (handle_conveys env t cid p v hk hc hv.valid) hu
    rcases hconveys id d (World.Inherits.sent hsent id d hd) with h | ⟨hs, hd⟩
    · exact .inl h
    · exact .inr ⟨t, cid, txt, m, p, v, he, hv, hp, hs, hd⟩
  · exact .inl (hmove.inherits hk (fun p v h => absurd ⟨p, v, h⟩ ha) id d hd)

theorem step_has {env : Env} {s t : Server} {c : Command} {config : Config} (hb : s.world.Base config)
    (h : s.step env c = some t) {id : String} {d : Value} (hd : t.world.Has id d) :
    s.world.Has id d ∨ s.Brings env c id d := by
  have hinv := (step_played hb h).invariant
    (I := fun w => w.Keyed ∧ ∀ id d, w.Has id d → s.world.Has id d ∨ s.Brings env c id d)
    (fun a w w' _ hm hw => ⟨hm.1.keyed hw.1, fun id d hd => (hm.has hw.1 hd).elim (hw.2 id d) .inr⟩)
    ⟨hb.keyed, fun _ _ h => .inl h⟩
  exact hinv.2 id d hd

/-- The start data was on file for the room when the run began, or a message of the run started its game with it. -/
def Original (G : Env → Server → Command → Prop) (s t : Server) (id : String) (d : Value) : Prop :=
  s.world.Has id d ∨
    ∃ s' env c t', Run G s s' ∧ G env s' c ∧ s'.Brings env c id d ∧ s'.step env c = some t' ∧ Run G t' t

/-- **The start data of a persistent room was on file, or a command of the run brought it.** -/
theorem Run.origin {G : Env → Server → Command → Prop} {s t : Server} {config : Config} (h : Run G s t)
    (hb : s.world.Base config) {id : String} {d : Value} (hd : t.world.Has id d) :
    Original G s t id d := by
  induction h with
  | refl => exact .inl hd
  | tail hrun hstep ih =>
    obtain ⟨env, c, hg, hs⟩ := hstep
    rcases step_has (Run.base hrun hb) hs hd with hd | hbr
    · rcases ih hd with h | ⟨s', env', c', t', h, hg', hbr, hs', h'⟩
      · exact .inl h
      · exact .inr ⟨s', env', c', t', h, hg', hbr, hs', h'.tail ⟨env, c, hg, hs⟩⟩
    · exact .inr ⟨_, env, c, _, hrun, hg, hbr, hs, .refl⟩

end Server

/-! The size of a reply. -/

omit [Extern] in
theorem toNat_le {c d : Char} : c ≤ d ↔ c.toNat ≤ d.toNat := UInt32.le_iff_toNat_le

omit [Extern] in
/-- A character of an identifier is one byte of JSON. -/
theorem escapeChar_uuid {c : Char} {i : Nat} (h : uuidCharOk c i = true) : (Json.escapeChar c).utf8ByteSize = 1 := by
  have hrange : 45 ≤ c.toNat ∧ c.toNat ≤ 102 ∧ c.toNat ≠ 92 := by
    unfold uuidCharOk isHex hexVal at h
    split at h
    · rw [of_decide_eq_true h]; decide
    split at h
    · have h := of_decide_eq_true h
      rw [toNat_le, toNat_le] at h
      simp at h
      omega
    split at h
    · have h := of_decide_eq_true h
      simp only [List.mem_cons, List.not_mem_nil, or_false] at h
      rcases h with rfl | rfl | rfl | rfl | rfl | rfl <;> decide
    · simp only [toNat_le] at h
      split at h
      · simp at *; omega
      split at h
      · simp at *; omega
      split at h
      · simp at *; omega
      · cases h
  exact Json.escapeChar_plain hrange.1 (Nat.le_trans hrange.2.1 (by decide)) hrange.2.2

omit [Extern] in
/-- An identifier as JSON text. -/
theorem quoteSize_uuid {s : String} (h : isUuid s = true) : Json.quoteSize s = 38 := by
  have hlen := isUuid_length h
  unfold isUuid at h
  rw [Bool.and_eq_true, List.all_eq_true] at h
  rw [Json.quoteSize, Json.escapeSize_plain (fun c hc => ?_), hlen]
  obtain ⟨i, hi, rfl⟩ := List.mem_iff_getElem.1 hc
  exact escapeChar_uuid (h.2 (s.toList[i], i) (List.mk_mem_zipIdx_iff_getElem?.2 (List.getElem?_eq_getElem hi)))

/-- What `getSession` tells of a room. -/
def Room.report (r : Room) : Value :=
  .obj [("revision", .ofNat r.revision), ("generation", .ofNat r.generation), ("size", .ofNat r.state.length),
    ("startData", r.start)]

/-- The bytes a number takes in a message. -/
def numberSize (n : Nat) : Nat := (Protocol.numText (.pos n)).utf8ByteSize

/-- The bytes of the three numbers a report has. -/
def Room.numbers (r : Room) : Nat := numberSize r.revision + numberSize r.generation + numberSize r.state.length

/-- Start data leaves room for a reply whose numbers take `n` bytes. -/
def Config.Reloads (c : Config) (n : Nat) (d : Value) : Prop := c.fits (132 + n + Protocol.size d) = true

/-- **A reply is this much longer than the start data it carries**; what `startGame` checks is longer by 32. -/
theorem size_report (r : Room) {req : String} (h : isUuid req = true) :
    Protocol.size (.obj [("method", .str "sessionReply"), ("data", r.report.set "requestId" (.str req))]) =
      132 + r.numbers + Protocol.size r.start := by
  have hset : r.report.set "requestId" (.str req) = .obj [("revision", .ofNat r.revision),
      ("generation", .ofNat r.generation), ("size", .ofNat r.state.length), ("startData", r.start),
      ("requestId", .str req)] := by
    simp [Room.report, Value.set, Value.setFields]
  have hq := quoteSize_uuid h
  rw [hset, Protocol.size_eq, Protocol.size_eq]
  simp only [Value.ofNat, Json.textSize, Json.fieldsSize, hq, Room.numbers, numberSize,
    show Json.quoteSize "method" = 8 from by decide, show Json.quoteSize "sessionReply" = 14 from by decide,
    show Json.quoteSize "data" = 6 from by decide, show Json.quoteSize "revision" = 10 from by decide,
    show Json.quoteSize "generation" = 12 from by decide, show Json.quoteSize "size" = 6 from by decide,
    show Json.quoteSize "startData" = 11 from by decide, show Json.quoteSize "requestId" = 11 from by decide]
  omega

/-- **`startGame` checks a shorter message**, by a hundred bytes and the numbers. -/
theorem size_gameStarted (d : Value) : Protocol.size (Server.gameStarted d) = 32 + Protocol.size d := by
  rw [Protocol.size_eq, Protocol.size_eq]
  simp only [Server.gameStarted, Json.textSize, Json.fieldsSize, show Json.quoteSize "method" = 8 from by decide,
    show Json.quoteSize "gameStarted" = 13 from by decide, show Json.quoteSize "data" = 6 from by decide]
  omega

/-- A request for what a saved room is. -/
def Trace.getSession : Value := message "getSession" [("requestId", .str Trace.request.text)]

namespace Server

theorem Requests.identified {t : Server} {cid : Nat} {p id : String} {v : Value}
    (h : t.Requests cid p id "getSession" v) :
    ∃ req, (v.idx "data").idx "requestId" = .str req ∧ isUuid req = true := by
  obtain ⟨txt, hv⟩ := h.valid
  have hd := Protocol.validate_data hv.valid hv.method
  simp only [Protocol.validData, Bool.and_eq_true] at hd
  obtain ⟨req, hreq, hu⟩ := Protocol.uuid_asStr hd.2
  exact ⟨req, Value.asStr_eq_some.1 hreq, hu⟩

/-- **A member is told of its game just when the reply fits.** -/
theorem Requests.told_iff {t : Server} {cid : Nat} {p id : String} {v : Value} {r : Room}
    (h : t.Requests cid p id "getSession" v) (env : Env) (hr : t.rooms.get id = some r) (hp : r.persistent = true) :
    ∃ u, reportErr cid (t.handle env cid p v) = .ok u ∧
      (u.offered = t.offered ++ [(cid, sessionReply ((v.idx "data").idx "requestId") r.report)] ↔
        t.config.Reloads r.numbers r.start) := by
  refine ⟨_, by rw [h.reported env hr hp]; rfl, ?_⟩
  obtain ⟨req, hreq, hu⟩ := h.identified
  rw [hreq]
  have hsize := size_report r hu
  obtain ⟨hplayer, hconn⟩ := h.speaks
  have hopen : t.connections.contains cid = true := by
    obtain ⟨c, hc, -⟩ := Option.bind_eq_some_iff.1 hplayer
    exact IndexMap.contains_iff.2 ⟨c, hc⟩
  have hoffered : ∀ msg, ((t.takeRoom id).raw cid msg).offered = t.offered ++ [(cid, msg)] := fun msg => by
    rw [raw_offered, if_pos (show (t.takeRoom id).connections.contains cid = true from hopen)]
    rfl
  have hsend : ∀ x, (t.takeRoom id).send p x = (t.takeRoom id).sendC cid x := fun x => by
    unfold send
    rw [show (t.takeRoom id).connectionOf p = some cid from hconn]
  have hne : ∀ {m m' : Message}, m ≠ m' → t.offered ++ [(cid, m)] ≠ t.offered ++ [(cid, m')] := fun hm he =>
    hm (Prod.mk.inj (List.singleton_inj.1 (List.append_cancel_left he))).2
  show ((t.takeRoom id).reply p (.str req) r.report).offered = _ ↔ _
  unfold reply
  rw [hsend]
  unfold sendC encoded Config.Reloads
  rw [hsize, show (t.takeRoom id).config = t.config from rfl]
  by_cases hfit : t.config.fits (132 + r.numbers + Protocol.size r.start) = true
  · rw [if_pos hfit]
    exact ⟨fun _ => hfit, fun _ => hoffered _⟩
  · rw [if_neg hfit, Option.none_or]
    refine ⟨fun he => absurd he ?_, fun h => absurd h hfit⟩
    split
    · rename_i msg hmsg
      have hmsg : msg = .text (errorData "response_too_large") := by
        split at hmsg
        · exact (Option.some.inj hmsg).symm
        · cases hmsg
      rw [hoffered, hmsg]
      exact hne (by simp [sessionReply, errorData])
    · rw [show (t.takeRoom id).offered = t.offered from rfl]
      exact fun he => absurd (congrArg List.length he) (by simp)

/-- The message, if it starts a persistent game, leaves room for replies whose numbers take `n` bytes. -/
def StartsWithin (n : Nat) (env : Env) (s : Server) (c : Command) : Prop :=
  ∀ id d, s.Brings env c id d → s.config.Reloads n d

/-- **A started persistent game can be loaded**: when every game was started with data that leaves room for a reply, a
member who asks is told the revision, the generation, the size and the data its game was started with. -/
theorem started_games_load {n : Nat} {config : Config} {store : Store} {push : Bool} {t : Server} {cid : Nat}
    {p id : String} {v : Value} {r : Room}
    (hfiles : ∀ k hd st, store.rooms.get k = some (.record hd st) → config.Reloads n (hd.idx "startData"))
    (hrun : Run (StartsWithin n) (boot config store push) t) (h : t.Requests cid p id "getSession" v)
    (hr : t.rooms.get id = some r) (hp : r.persistent = true) (hn : r.numbers ≤ n) (env : Env) :
    (∃ u, reportErr cid (t.handle env cid p v) = .ok u ∧
      u.offered = t.offered ++ [(cid, sessionReply ((v.idx "data").idx "requestId") r.report)]) ∧
      (∀ x, sessionReply ((v.idx "data").idx "requestId") r.report = .text x →
        Protocol.size x ≤ min config.maxPayloadBytes (config.maxBufferedBytes - 10)) ∧
      Original (StartsWithin n) (boot config store push) t id r.start := by
  have hbase := boot_base config store push
  have hhas : t.world.Has id r.start := .inl ⟨r, hr, hp, rfl⟩
  have horigin := Run.origin hrun hbase hhas
  have hroomy : config.Reloads n r.start := by
    rcases horigin with (⟨_, hnone, -⟩ | ⟨k, hd, st, hk, -, hs⟩) | ⟨s', env', c, t', hs', hg, hbr, -, -⟩
    · cases hnone
    · exact hs ▸ hfiles k hd st hk
    · have hc : s'.config = config := (Run.base hs' hbase).config
      exact hc ▸ hg id r.start hbr
  have hfit : 132 + r.numbers + Protocol.size r.start ≤ config.maxPayloadBytes ∧
      132 + r.numbers + Protocol.size r.start + 10 ≤ config.maxBufferedBytes := by
    unfold Config.Reloads Config.fits at hroomy
    rw [Bool.and_eq_true, decide_eq_true_eq, decide_eq_true_eq] at hroomy
    omega
  obtain ⟨u, hu, hiff⟩ := h.told_iff env hr hp
  refine ⟨⟨u, hu, hiff.2 ?_⟩, fun x hx => ?_, horigin⟩
  · rw [show t.config = config from (Run.base hrun hbase).config]
    unfold Config.Reloads Config.fits
    rw [decide_eq_true hfit.1, decide_eq_true hfit.2]
    rfl
  · obtain ⟨req, hreq, hu⟩ := h.identified
    rw [hreq] at hx
    cases hx
    have hsize := size_report r hu
    omega

/-- Does the command execute no `startGame` but one that leaves room for replies whose numbers take `n` bytes? -/
def startsWithin (n : Nat) (_ : Env) (s : Server) : Command → Bool
  | .receive _ (.text txt) => (Protocol.parse txt).all (fun v =>
      decide (v.idx "method" ≠ .str "startGame") || s.config.fits (132 + n + Protocol.size (v.idx "data")))
  | .sweep => s.delayed.isEmpty
  | _ => true

theorem startsWithin_of {n : Nat} {env : Env} {s : Server} {c : Command} (h : s.startsWithin n env c = true) :
    StartsWithin n env s c := by
  rintro id d ⟨t, cid, txt, m, p, v, he, hv, hp, hs, rfl⟩
  generalize hf : Frame.text txt = frame at he
  cases he with
  | text =>
    cases hf
    have hall := (Option.all_eq_true _ _).1 h v hv.parses
    rw [Bool.or_eq_true, decide_eq_true_eq] at hall
    exact hall.resolve_left (fun hne => hne hs.method)
  | binary => cases hf
  | due hq =>
    rw [show s.startsWithin n env .sweep = s.delayed.isEmpty from rfl, hq] at h
    simp at h

omit [Extern] in
/-- The owner of a new game asks. -/
theorem started_games_load_started :
    letI := Extern.reading [Trace.signUp, Trace.createRoom, Trace.startGame, Trace.getSession]
    ∃ (t u : Server) (r : Room), t.rooms.get Trace.room = some r ∧ r.start = Trace.startGame.idx "data" ∧
      reportErr 1 (t.handle (Env.plain 2) 1 Trace.account Trace.getSession) = .ok u ∧
      u.offered = t.offered ++ [(1, sessionReply (.str Trace.request.text) r.report)] := by
  let _ := Extern.reading [Trace.signUp, Trace.createRoom, Trace.startGame, Trace.getSession]
  have h : (exec (startsWithin 3) Trace.started (boot .default .empty false)).any (fun s =>
      (s.rooms.get Trace.room).any (fun r => r.persistent && decide (r.numbers ≤ 3) &&
        decide (r.start = Trace.startGame.idx "data")) &&
      decide ((s.connections.get 1).bind (·.player) = some Trace.account) &&
      decide (s.connectionOf Trace.account = some 1) &&
      (s.players.get Trace.account).any (fun a => decide (a.room = some Trace.room)) &&
      decide (Protocol.parse (plainText Trace.getSession) = some Trace.getSession) &&
      Protocol.validate Trace.getSession s.config.maxRoomPlayers s.config.maxAccounts) = true := by
    decide +kernel
  obtain ⟨t, ht, h⟩ := (Option.any_eq_true _ _).1 h
  simp only [Bool.and_eq_true, decide_eq_true_eq] at h
  obtain ⟨⟨⟨⟨⟨hr, hplayer⟩, hconn⟩, ha⟩, hparse⟩, hvalid⟩ := h
  obtain ⟨r, hr, hr'⟩ := (Option.any_eq_true _ _).1 hr
  simp only [Bool.and_eq_true, decide_eq_true_eq] at hr'
  obtain ⟨⟨hp, hn⟩, hstart⟩ := hr'
  obtain ⟨a, ha, hroom⟩ := (Option.any_eq_true _ _).1 ha
  have hreq : t.Requests 1 Trace.account Trace.room "getSession" Trace.getSession :=
    ⟨⟨_, hparse, hvalid, rfl⟩, ⟨hplayer, hconn⟩, ⟨a, ha, of_decide_eq_true hroom⟩⟩
  have hempty : ∀ k hd st, Store.empty.rooms.get k = some (.record hd st) →
      Config.default.Reloads 3 (hd.idx "startData") := fun _ _ _ hk => by cases hk
  obtain ⟨⟨u, hu, hoff⟩, -, -⟩ := started_games_load hempty
    (exec_run (fun _ _ _ h => startsWithin_of h) ht) hreq hr hp hn (Env.plain 2)
  exact ⟨t, u, r, hr, hstart, hu, hoff⟩

end Server

namespace Trace

/-- A room for one. -/
def createOwn : Value := message "createRoom" [("name", .str "a"), ("maxPlayers", .ofNat 1)]

/-- Start a persistent game on a map with a long name. -/
def startLong : Value := message "startGame" [("fixedRoster", .bool true), ("hostMigration", .bool true),
  ("persistent", .bool true), ("map", .str (String.ofList (List.replicate 250 'a')))]

def longStarted : List (Env × Command) := [(.plain 1, .connected 1), (.plain 1, .tells 1 signUp),
  (.plain 1, .tells 1 createOwn), (.plain 1, .tells 1 startLong)]

/-- A short limit on messages. -/
def narrow : Config := { Config.default with maxPayloadBytes := 400 }

end Trace

namespace Server

omit [Extern] in
/-- **A game starts with data that no reply can carry**: its owner is told `response_too_large`. -/
theorem started_game_lost :
    letI := Extern.reading [Trace.signUp, Trace.createOwn, Trace.startLong, Trace.getSession]
    ∃ t u r, Run (fun _ _ _ => True) (boot Trace.narrow .empty false) t ∧
      t.Requests 1 Trace.account Trace.room "getSession" Trace.getSession ∧ t.rooms.get Trace.room = some r ∧
      r.persistent = true ∧ Trace.account ∈ r.active ∧
      reportErr 1 (t.handle (Env.plain 2) 1 Trace.account Trace.getSession) = .ok u ∧
      u.offered = t.offered ++ [(1, .text (errorData "response_too_large"))] := by
  let _ := Extern.reading [Trace.signUp, Trace.createOwn, Trace.startLong, Trace.getSession]
  have h : (exec (fun _ _ _ => true) Trace.longStarted (boot Trace.narrow .empty false)).any (fun s =>
      (s.rooms.get Trace.room).any (fun r => r.persistent && r.active.contains Trace.account) &&
      decide ((s.connections.get 1).bind (·.player) = some Trace.account) &&
      decide (s.connectionOf Trace.account = some 1) &&
      (s.players.get Trace.account).any (fun a => decide (a.room = some Trace.room)) &&
      decide (Protocol.parse (plainText Trace.getSession) = some Trace.getSession) &&
      Protocol.validate Trace.getSession s.config.maxRoomPlayers s.config.maxAccounts &&
      (reportErr 1 (s.handle (Env.plain 2) 1 Trace.account Trace.getSession)).result.any (fun u =>
        decide (u.offered = s.offered ++ [(1, .text (errorData "response_too_large"))]))) = true := by
    decide +kernel
  obtain ⟨t, ht, h⟩ := (Option.any_eq_true _ _).1 h
  simp only [Bool.and_eq_true, decide_eq_true_eq] at h
  obtain ⟨⟨⟨⟨⟨⟨hr, hplayer⟩, hconn⟩, ha⟩, hparse⟩, hvalid⟩, hh⟩ := h
  obtain ⟨r, hr, hr'⟩ := (Option.any_eq_true _ _).1 hr
  obtain ⟨hp, hmem⟩ := Bool.and_eq_true_iff.1 hr'
  obtain ⟨a, ha, hroom⟩ := (Option.any_eq_true _ _).1 ha
  obtain ⟨u, hu, hoff⟩ := (Option.any_eq_true _ _).1 hh
  exact ⟨t, u, r, exec_run (fun _ _ _ _ => trivial) ht,
    ⟨⟨_, hparse, hvalid, rfl⟩, ⟨hplayer, hconn⟩, ⟨a, ha, of_decide_eq_true hroom⟩⟩, hr, hp,
    IndexSet.contains_iff.1 hmem, Out.result_eq_some.1 hu, of_decide_eq_true hoff⟩

end Server
end Relay
