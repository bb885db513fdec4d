import GameRelay.World
/-!
# Moves — entering, keeping and leaving as moves

How the server's setters show in the world, and the two big ones: `leave` is `World.Left` and `enter` is one `Move`.
`Keyed` is what the proofs need of the tables, that each entry lies under its own identifier.
-/
namespace Relay

open Function (update)

/-- Every entry lies under its own identifier. -/
structure World.Keyed (w : World) : Prop where
  seats : ∀ {id q}, w.seats id = some q → q.id = id
  rooms : ∀ {id r}, w.rooms id = some r → r.id = id

theorem World.ext' {w w' : World} (h1 : w'.config = w.config) (h2 : w'.seats = w.seats) (h3 : w'.rooms = w.rooms)
    (h4 : w'.files = w.files) (h5 : w'.jobs = w.jobs) (h6 : w'.history = w.history) (h7 : w'.links = w.links)
    (h8 : w'.queue = w.queue) : w' = w := by
  cases w; cases w'; simp_all

namespace Server

theorem seats_eq {s : Server} {id : String} {p : Player} (h : s.players.get id = some p) :
    s.world.seats id = some p.seat := by
  show (s.players.get id).map Player.seat = _
  rw [h]; rfl

theorem world_setRoom (s : Server) (id : String) (r : Room) :
    (s.setRoom id r).world = { s.world with rooms := update s.world.rooms id (some r) } :=
  World.ext' rfl rfl (IndexMap.get_insert_eq _ _ _) rfl rfl rfl rfl rfl

theorem world_removeRoom (s : Server) (id : String) :
    (s.removeRoom id).world = { s.world with rooms := update s.world.rooms id none } :=
  World.ext' rfl rfl (IndexMap.get_shiftRemove_eq _ _) rfl rfl rfl rfl rfl

theorem world_takeRoom (s : Server) (id : String) :
    (s.takeRoom id).world = { s.world with rooms := update s.world.rooms id none } :=
  World.ext' rfl rfl (IndexMap.get_swapRemove_eq _ _) rfl rfl rfl rfl rfl

theorem world_setPlayer (s : Server) (id : String) (p : Player) :
    (s.setPlayer id p).world = { s.world with seats := update s.world.seats id (some p.seat) } := by
  refine World.ext' rfl ?_ rfl rfl rfl rfl rfl rfl
  funext x
  show ((s.players.insert id p).get x).map Player.seat = update s.world.seats id (some p.seat) x
  rw [IndexMap.get_insert, Function.update_apply]
  split <;> rfl

/-- Changing what the world does not see of an account. -/
theorem world_setPlayer_same {s : Server} {id : String} {p p' : Player} (h : s.players.get id = some p)
    (hs : p'.seat = p.seat) : (s.setPlayer id p').world = s.world := by
  rw [world_setPlayer, hs, ← seats_eq h, Function.update_eq_self]

theorem world_setConnection (s : Server) (cid : Nat) (c : Connection) :
    (s.setConnection cid c).world = { s.world with links := update s.world.links cid (some c.link) } :=
  World.ext' rfl rfl rfl rfl rfl rfl (links_setConnection s cid c) rfl

theorem world_record (s : Server) (es : List Event) :
    (s.record es).world = { s.world with history := s.world.history ++ es } := rfl

theorem world_dropReservations (s : Server) (p : String) :
    (s.dropReservations p).world = { s.world with rooms := fun x => (s.world.rooms x).map (Room.dropReservation p) } :=
  World.ext' rfl rfl (IndexMap.get_mapVals_eq _ _) rfl rfl rfl rfl rfl

theorem Sent.world {s s' : Server} (h : Sent s s') : s.world.Sent s'.world := by
  refine ⟨s'.links, s'.delayed, h.2, ?_, World.ext' ?_ ?_ ?_ ?_ ?_ ?_ rfl rfl⟩
  · rw [show s'.delayed = s.delayed from congrArg Core.delayed h.1]
    exact List.Subset.refl _
  all_goals simp only [Server.world, h.1]

end Server

/-! What leaving keeps of a room. -/

theorem departed_keeps (r : Room) (p : String) (d : Bool) :
    (Server.departed r p d).id = r.id ∧ (Server.departed r p d).owner = r.owner ∧
      (Server.departed r p d).generation = r.generation ∧ (Server.departed r p d).persistent = r.persistent := by
  unfold Server.departed
  dsimp only
  repeat' split
  all_goals exact ⟨rfl, rfl, rfl, rfl⟩

theorem remains_keeps (r : Room) (p : String) (d : Bool) :
    (remains r p d).id = r.id ∧ (remains r p d).owner = r.owner ∧ (remains r p d).generation = r.generation ∧
      (remains r p d).persistent = r.persistent := by
  unfold remains
  split
  · exact departed_keeps r p d
  · exact departed_keeps r p d

namespace World

theorem Sent.releaseAll {w w' : World} (h : w.Sent w') (ids : List String) :
    World.Sent { w with seats := Relay.releaseAll w.seats ids } { w' with seats := Relay.releaseAll w'.seats ids } := by
  obtain ⟨l, q, hl, hq, rfl⟩ := h
  exact ⟨l, q, hl, hq, rfl⟩

theorem Sent.setRoom {w w' : World} (h : w.Sent w') (id : String) (r : Room) :
    World.Sent { w with rooms := update w.rooms id (some r) } { w' with rooms := update w'.rooms id (some r) } := by
  obtain ⟨l, q, hl, hq, rfl⟩ := h
  exact ⟨l, q, hl, hq, rfl⟩

theorem Sent.record {w w' : World} (h : w.Sent w') (es : List Event) :
    World.Sent { w with history := w.history ++ es } { w' with history := w'.history ++ es } := by
  obtain ⟨l, q, hl, hq, rfl⟩ := h
  exact ⟨l, q, hl, hq, rfl⟩

theorem Sent.sleeps {r : Room} {w₀ w w' : World} (h : w₀.Sent w) (hs : w.Sleeps r w') :
    ∃ w₁, w₀.Sleeps r w₁ ∧ w₁.Sent w' := by
  obtain ⟨l, q, hl, hq, rfl⟩ := h
  obtain ⟨gone, cleared, hlive, hc, hf⟩ := hs
  exact ⟨_, .mk gone cleared hlive hc hf, l, q, hl, hq, rfl⟩

end World

theorem Seat.release_release (q : Seat) : q.release.release = q.release := rfl

theorem releaseAll_append (seats : String → Option Seat) (a b : List String) :
    releaseAll (releaseAll seats a) b = releaseAll seats (a ++ b) := by
  funext x
  unfold releaseAll
  simp only [List.mem_append]
  by_cases ha : x ∈ a <;> by_cases hb : x ∈ b <;>
    simp [ha, hb, Option.map_map, Function.comp_def, Seat.release_release]

theorem releaseAll_one {seats : String → Option Seat} {p : String} {q : Seat} (h : seats p = some q) :
    releaseAll seats [p] = update seats p (some q.release) := by
  funext x
  unfold releaseAll
  rw [Function.update_apply]
  by_cases hx : x = p
  · subst hx; simp [h]
  · simp [hx]

theorem Move.of_eq {a : Act} [Extern] {w w' : World} (h : Effect a w w') : Move a w w' := ⟨w', h, .refl w'⟩

variable [Extern]

theorem Move.idle (a : Act) (w : World) : Move a w w := .of_eq (.idle a w)

/-- Sending nothing but frames is an idle move. -/
theorem Move.sent (a : Act) {s s' : Server} (h : Server.Sent s s') : Move a s.world s'.world :=
  ⟨s.world, .idle a _, h.world⟩

theorem Move.then_sent {a : Act} {w : World} {s s' : Server} (h : Move a w s.world) (h' : Server.Sent s s') :
    Move a w s'.world := by
  obtain ⟨w₁, he, hs⟩ := h
  exact ⟨w₁, he, hs.trans h'.world⟩

namespace Server

omit [Extern] in
theorem world_releaseMembers : ∀ (ids : List String) (s : Server),
    (s.releaseMembers ids).world = { s.world with seats := releaseAll s.world.seats ids }
  | [], s => World.ext' rfl (by funext x; simp [releaseAll]; rfl) rfl rfl rfl rfl rfl rfl
  | id :: ids, s => by
    let t : Server := { s with players := s.players.modify id releasePlayer }
    have ht : t.world = { s.world with seats := releaseAll s.world.seats [id] } := by
      refine World.ext' rfl ?_ rfl rfl rfl rfl rfl rfl
      funext x
      show ((s.players.modify id releasePlayer).get x).map Player.seat =
        if x ∈ [id] then ((s.players.get x).map Player.seat).map Seat.release else (s.players.get x).map Player.seat
      rw [IndexMap.get_modify]
      by_cases hx : x = id
      · subst hx; simp [Option.map_map, Function.comp_def]; rfl
      · simp [hx]
    show (t.releaseMembers ids).world = _
    rw [world_releaseMembers ids t, ht, releaseAll_append]
    rfl

/-- **A room handed to `keep` sleeps or is live again.** -/
theorem keep_world (env : Env) (s : Server) (r : Room) :
    (r.persistent = true ∧ r.active.isEmpty = true ∧ ∃ w, s.world.Sleeps r w ∧ w.Sent (s.keep env r).world) ∨
      (s.keep env r).world = { s.world with rooms := update s.world.rooms r.id (some r) } := by
  unfold keep
  split
  · rename_i hpa
    rw [Bool.and_eq_true] at hpa
    split
    · rename_i st hs
      obtain ⟨hj, -, -, -, hr⟩ := Store.save_spec hs
      rw [if_pos rfl] at hr
      obtain ⟨ids, hids, hp⟩ := Store.prune_spec env.io st s.rooms.keys env.now
      dsimp only
      generalize Store.prune env.io st s.rooms.keys env.now = p at hp ⊢
      obtain ⟨gone, cleared, hg, hsub, hc, hrooms, hjobs⟩ := hp.evicts
      rw [List.nil_append] at hg
      let t : Server := { s with store := p.store }.record (p.gone.map .evicted)
      have ht : t.world = { s.world with
            files := fun k => if k ∈ gone.map lowerText then none else
              update s.world.files (lowerText r.id) (some (.record r.header r.state)) k
            jobs := fun x => if x ∈ cleared then [] else s.world.jobs x
            history := s.world.history ++ gone.map .evicted } := by
        refine World.ext' rfl rfl rfl ?_ ?_ ?_ rfl rfl
        · show p.store.rooms.get = _
          rw [hrooms, hr, IndexMap.get_insert_eq]; rfl
        · funext x
          show (p.store.jobs.get x).getD [] = if x ∈ cleared then [] else (s.store.jobs.get x).getD []
          rw [hjobs, hj]
          dsimp only
          split <;> rfl
        · show s.history ++ p.gone.map .evicted = s.history ++ gone.map .evicted
          rw [hg]
      refine .inl ⟨hpa.1, hpa.2, t.world, ht ▸ .mk gone cleared (fun x hx => ?_) hc (fun x hx => ?_), ?_⟩
      · exact IndexMap.get_eq_none.2 (hids x (hsub hx)).1
      · have := (hids x (hsub hx)).2
        rw [hr, IndexMap.get_insert_eq] at this
        exact this
      · split
        · exact (Sent.foldl (fun s id => sent_lobby s _) _ t).world
        · exact .refl _
    · rename_i st hs
      obtain ⟨hj, -, -, -, hr⟩ := Store.save_spec hs
      rw [if_neg (by decide)] at hr
      refine .inr ?_
      rw [world_setRoom]
      refine World.ext' rfl rfl rfl ?_ ?_ rfl rfl rfl
      · show st.rooms.get = s.store.rooms.get
        rw [hr]
      · show (fun id => (st.jobs.get id).getD []) = fun id => (s.store.jobs.get id).getD []
        rw [hj]
  · exact .inr (world_setRoom s r.id r)

omit [Extern] in
/-- The tables `leave` works on: `p` released, and its seats elsewhere given up when it leaves for good. -/
theorem world_leaving {s : Server} {p : String} {player : Player} (hp : s.players.get p = some player) (d : Bool) :
    (if d then s.setPlayer p (releasePlayer player)
      else (s.setPlayer p (releasePlayer player)).dropReservations p).world =
      { s.world with seats := releaseAll s.world.seats [p], rooms := dropSeats s.world.rooms p d } := by
  rw [releaseAll_one (seats_eq hp)]
  cases d with
  | true => exact world_setPlayer s p _
  | false =>
    rw [if_neg (by decide), world_dropReservations, world_setPlayer]
    rfl

/-- **Leaving is `Left`, then frames.** -/
theorem leave_left (env : Env) (s : Server) (p : String) (d : Bool) (hk : s.world.Keyed) :
    (s.leave env p d).All (fun t => ∃ w, s.world.Left p d w ∧ w.Sent t.world) := by
  unfold leave
  refine Out.all_unwrap (fun player hp => ?_)
  have hq := seats_eq hp
  have hs := world_leaving hp d
  dsimp only
  generalize (if d then s.setPlayer p (releasePlayer player)
    else (s.setPlayer p (releasePlayer player)).dropReservations p) = s₁ at hs
  have hrooms : s₁.rooms.get = dropSeats s.world.rooms p d := congrArg World.rooms hs
  cases hid : player.room with
  | none => exact ⟨_, .nowhere hq (by show player.room.bind _ = none; rw [hid]; rfl), hs ▸ .refl _⟩
  | some id =>
    dsimp only
    cases hr : s₁.rooms.get id with
    | none =>
      refine ⟨_, .nowhere hq ?_, hs ▸ .refl _⟩
      show player.room.bind _ = none
      rw [hid, ← hrooms]; exact hr
    | some r =>
      dsimp only
      rw [hrooms] at hr
      have hrid : r.id = id := by
        unfold dropSeats at hr
        split at hr
        · exact hk.rooms hr
        · obtain ⟨r₀, hr₀, rfl⟩ := Option.map_eq_some_iff.1 hr
          show r₀.id = id
          exact hk.rooms hr₀
      have hkeep := remains_keeps r p d
      -- the room taken out and its members told, then those of an ended game released
      generalize hm : Value.obj [("method", .str (if d then "playerDisconnected" else "playerLeft")), ("data", .str p)]
        = msg
      let s₂ := (s₁.removeRoom id).broadcast (departed r p d) msg none none
      have h₂ : World.Sent
          { s.world with
            seats := releaseAll s.world.seats [p]
            rooms := update (dropSeats s.world.rooms p d) id none } s₂.world := by
        have := (sent_broadcast (s₁.removeRoom id) (departed r p d) msg none none).world
        rw [world_removeRoom, hs] at this
        exact this
      have h₃ : World.Sent
          { s.world with
            seats := releaseAll s.world.seats (released r p d)
            rooms := update (dropSeats s.world.rooms p d) id none }
          (if ownerLost (departed r p d) p then s₂.releaseMembers (departed r p d).active.items else s₂).world := by
        unfold released
        split
        · have := h₂.releaseAll (departed r p d).active.items
          rw [world_releaseMembers]
          dsimp only at this
          rw [releaseAll_append] at this
          exact this
        · exact h₂
      have hrem : (if ownerLost (departed r p d) p then { departed r p d with active := IndexSet.empty }
        else departed r p d) = remains r p d := rfl
      rw [hrem]
      generalize (if ownerLost (departed r p d) p then s₂.releaseMembers (departed r p d).active.items else s₂) = s₃
        at h₃
      split
      · rename_i he
        split
        · rename_i hpers
          rw [hkeep.2.2.2] at hpers
          rcases keep_world env s₃ (remains r p d) with ⟨-, -, w, hw, hsent⟩ | hw
          · obtain ⟨w₁, hw₁, hs₁⟩ := h₃.sleeps hw
            exact ⟨w₁, .slept hq hid hr he hpers hw₁, hs₁.trans hsent⟩
          · refine ⟨_, .kept hq hid hr he hpers, ?_⟩
            show World.Sent _ (s₃.keep env (remains r p d)).world
            rw [hw, hkeep.1, hrid]
            have := h₃.setRoom id (remains r p d)
            dsimp only at this
            rw [Function.update_idem] at this
            exact this
        · rename_i hpers
          rw [hkeep.2.2.2] at hpers
          exact ⟨_, .deleted hq hid hr he (by simpa using hpers), h₃.trans (sent_lobby s₃ _).world⟩
      · refine Out.all_unwrap (fun first hf => ?_)
        refine ⟨_, .stayed hq hid hr hf, ?_⟩
        have htold : World.Sent
            { s.world with
              seats := releaseAll s.world.seats (released r p d)
              rooms := update (dropSeats s.world.rooms p d) id none
              history := s.world.history ++ if r.owner = p then [.hosted r.id first (r.generation + 1)] else [] }
            (if (remains r p d).owner = p then (s₃.record [.hosted (remains r p d).id first
              ((remains r p d).generation + 1)]).broadcast (elected (remains r p d) first)
              (newRoomOwner (elected (remains r p d) first)) none none else s₃).world := by
          rw [hkeep.1, hkeep.2.1, hkeep.2.2.1]
          split
          · have hrec := h₃.record [.hosted r.id first (r.generation + 1)]
            rw [← world_record] at hrec
            exact hrec.trans (sent_broadcast _ _ _ _ _).world
          · rw [List.append_nil]; exact h₃
        have hset := (htold.trans (sent_offerSeats _ (handedOver (remains r p d) p first)).world).setRoom id
          (handedOver (remains r p d) p first)
        dsimp only at hset
        rw [Function.update_idem] at hset
        have hid' : (handedOver (remains r p d) p first).id = id := by
          unfold handedOver
          split
          · exact hkeep.1.trans hrid
          · exact hkeep.1.trans hrid
        show World.Sent _ (Server.setRoom _ (handedOver (remains r p d) p first).id
          (handedOver (remains r p d) p first)).world
        rw [hid', world_setRoom]
        exact hset

theorem admit_world (env : Env) (s : Server) (p id : String) (player : Player) (loaded : Option Room) (r : Room) :
    World.Sent
      { s.world with
        seats := update s.world.seats p (some { player.seat with room := some id })
        rooms := update s.world.rooms id (some (joined r p))
        history := s.world.history ++ entryEvents loaded r p } (s.seatIn env p id player loaded r).world := by
  unfold seatIn
  generalize hpl : ({ player with room := some id, entered := some env.now, version := player.version + 1 } : Player)
    = pl
  have hseat : pl.seat = { player.seat with room := some id } := by rw [← hpl]; rfl
  have hw : (((s.record (entryEvents loaded r p)).setRoom id (joined r p)).setPlayer p pl).world =
      { s.world with
        seats := update s.world.seats p (some { player.seat with room := some id })
        rooms := update s.world.rooms id (some (joined r p))
        history := s.world.history ++ entryEvents loaded r p } := by
    rw [world_setPlayer, world_setRoom, world_record, hseat]
  dsimp only
  rw [← hw]
  exact ((sent_broadcast _ _ _ _ _).trans (sent_send _ p _)).world

/-- **Entering a room is one move.** -/
theorem enter_move (env : Env) (s : Server) (p id : String) (pw v : Value) (hc : (s.connectionOf p).isSome)
    (hm : v.idx "method" = .str "enterRoom") (hid : (v.idx "data").idx "roomId" = .str id)
    (hpw : (v.idx "data").idx "password" = pw) :
    (s.enter env p id pw).All (fun t => Move (.text p v) s.world t.world) := by
  unfold enter
  refine Out.all_unwrap (fun player hp => ?_)
  have hq := seats_eq hp
  have hconn : player.seat.connection.isSome := by
    unfold connectionOf at hc
    rw [hp] at hc
    exact hc
  cases hroom : player.room with
  | some room => exact Move.sent _ (sent_err s p _)
  | none =>
    dsimp only
    by_cases hcon : s.rooms.contains id = true
    · -- the room is live
      obtain ⟨r, hr⟩ := IndexMap.contains_iff.1 hcon
      rw [if_pos hcon]
      dsimp only
      rw [hr]
      dsimp only
      split
      · rename_i e he
        split
        · rename_i hae
          rw [Bool.and_eq_true] at hae
          refine ⟨_, .refused hm hid hpw hq hroom hr hae.1 hae.2 he, ?_⟩
          have := (sent_err s p e).world
          rw [world_removeRoom]
          obtain ⟨l, q, hl, hq, hw⟩ := this
          rw [hw]
          exact ⟨l, q, hl, hq, rfl⟩
        · exact Move.sent _ (sent_err s p e)
      · rename_i he
        exact ⟨_, .entered hq hconn hroom (.inl ⟨rfl, hr⟩) he hm hid hpw, admit_world env s p id player none r⟩
    · rw [if_neg hcon]
      have hnone : s.rooms.get id = none := IndexMap.contains_eq_false.1 (by simpa using hcon)
      cases hl : s.store.load id true env.now with
      | error e => exact .idle _ _
      | ok loaded =>
        cases loaded with
        | none =>
          dsimp only
          rw [hnone]
          exact Move.sent _ (sent_err s p _)
        | some r =>
          dsimp only
          rw [show (s.setRoom id r).rooms.get id = some r from IndexMap.get_insert_self _ _ _]
          dsimp only
          obtain ⟨-, hd, st, hf, hrid, hlen, hr⟩ := Store.load_ok hl
          rw [if_pos rfl] at hr
          have hshape := Store.load_shape hl
          split
          · -- read back and refused: the map is as before
            rename_i e he
            rw [if_pos (by rw [hshape.2.1, hshape.2.2.2.2.2.2]; rfl)]
            have hw : ((s.setRoom id r).removeRoom id).world = s.world := by
              rw [world_removeRoom, world_setRoom]
              refine World.ext' rfl rfl ?_ rfl rfl rfl rfl rfl
              show update (update s.rooms.get id (some r)) id none = s.rooms.get
              rw [Function.update_idem, ← hnone, Function.update_eq_self]
            have hs := (sent_err (s.setRoom id r) p e)
            refine ⟨s.world, .idle _ _, ?_⟩
            rw [← hw]
            obtain ⟨l, q, hl, hq, hw'⟩ := hs.world
            rw [world_removeRoom, world_removeRoom]
            rw [hw']
            exact ⟨l, q, hl, hq, rfl⟩
          · rename_i he
            refine ⟨_, .entered hq hconn hroom (.inr ⟨rfl, hnone, env.now, hd, st, hf, hrid, hlen, hr⟩) he hm hid hpw,
              ?_⟩
            have := admit_world env (s.setRoom id r) p id player (some r) r
            rw [world_setRoom] at this
            dsimp only at this
            rw [Function.update_idem] at this
            exact this

end Server

end Relay
