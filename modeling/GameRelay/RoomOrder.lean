import GameRelay.Alike
/-!
# RoomOrder — the order of the room map is not observable

What looks at the map asks for a room by its identifier, for the number of rooms, or for all of them sorted or as a set;
and each change of it, `swap_remove` included, keeps the entries equal up to their order.  So a command leaves alike servers
alike (`Alike.handle`, `Alike.auth`), and **every frame received and every disconnect does**
(`room_order_is_unobservable`).
-/
namespace Relay
namespace Server

variable [Extern]

namespace Alike

variable {s t : Server}

omit [Extern] in
theorem exists_map (h : Alike s t) : ∃ m, t = s.withRooms m := ⟨_, h.rest⟩

omit [Extern] in
theorem get (h : Alike s t) : t.rooms.get = s.rooms.get := (IndexMap.get_of_perm h.entries).symm

omit [Extern] in
theorem contains (h : Alike s t) (id : String) : t.rooms.contains id = s.rooms.contains id := by
  unfold IndexMap.contains
  rw [h.get]

omit [Extern] in
theorem dto (h : Alike s t) : t.dto = s.dto := by
  obtain ⟨m, rfl⟩ := h.exists_map
  rfl

omit [Extern] in
/-- What neither reads the map nor writes it. -/
theorem via (h : Alike s t) (g : Server → Server) (hg : ∀ s m, g (s.withRooms m) = (g s).withRooms m)
    (hr : ∀ s, (g s).rooms = s.rooms) : Alike (g s) (g t) := by
  obtain ⟨m, rfl⟩ := h.exists_map
  rw [hg]
  exact ⟨by rw [hr]; exact h.entries, rfl⟩

omit [Extern] in
/-- What writes nothing but the map. -/
theorem change (h : Alike s t) (f : IndexMap String Room → IndexMap String Room)
    (hf : ∀ {m m'}, m.entries.Perm m'.entries → (f m).entries.Perm (f m').entries) :
    Alike { s with rooms := f s.rooms } { t with rooms := f t.rooms } := by
  obtain ⟨m, rfl⟩ := h.exists_map
  exact ⟨hf h.entries, rfl⟩

omit [Extern] in
theorem ite {c : Prop} [Decidable c] {s' t' : Server} (h : Alike s t) (h' : Alike s' t') :
    Alike (if c then s else s') (if c then t else t') := by
  split
  · exact h
  · exact h'

omit [Extern] in
theorem foldl {α : Type} {f : Server → α → Server} (hf : ∀ {s t} a, Alike s t → Alike (f s a) (f t a)) :
    ∀ (l : List α) {s t : Server}, Alike s t → Alike (l.foldl f s) (l.foldl f t)
  | [], _, _, h => h
  | a :: l, _, _, h => foldl hf l (hf a h)

omit [Extern] in
theorem setRoom (h : Alike s t) (id : String) (r : Room) : Alike (s.setRoom id r) (t.setRoom id r) :=
  h.change _ (fun hm => IndexMap.insert_perm hm id r)

omit [Extern] in
theorem removeRoom (h : Alike s t) (id : String) : Alike (s.removeRoom id) (t.removeRoom id) :=
  h.change _ (fun hm => IndexMap.shiftRemove_perm hm id)

omit [Extern] in
theorem takeRoom (h : Alike s t) (id : String) : Alike (s.takeRoom id) (t.takeRoom id) :=
  h.change _ (fun hm => IndexMap.swapRemove_perm hm id)

omit [Extern] in
theorem dropReservations (h : Alike s t) (p : String) : Alike (s.dropReservations p) (t.dropReservations p) :=
  h.change (fun m => m.mapVals (fun _ r => r.dropReservation p)) (fun hm => hm.map _)

omit [Extern] in
theorem setPlayer (h : Alike s t) (id : String) (p : Player) : Alike (s.setPlayer id p) (t.setPlayer id p) :=
  h.via (fun s => s.setPlayer id p) (fun _ _ => rfl) (fun _ => rfl)

omit [Extern] in
theorem setConnection (h : Alike s t) (cid : Nat) (c : Connection) : Alike (s.setConnection cid c) (t.setConnection cid c) :=
  h.via (fun s => s.setConnection cid c) (fun _ _ => rfl) (fun _ => rfl)

omit [Extern] in
theorem setStore (h : Alike s t) (st : Store) : Alike { s with store := st } { t with store := st } :=
  h.via (fun s => { s with store := st }) (fun _ _ => rfl) (fun _ => rfl)

omit [Extern] in
theorem record (h : Alike s t) (es : List Event) : Alike (s.record es) (t.record es) :=
  h.via (fun s => s.record es) (fun _ _ => rfl) (fun _ => rfl)

theorem raw (h : Alike s t) (cid : Nat) (msg : Message) : Alike (s.raw cid msg) (t.raw cid msg) :=
  h.via (fun s => s.raw cid msg) (fun s m => raw_withRooms s m cid msg) (fun s => congrArg Core.rooms (raw_toCore s cid msg))

theorem sendC (h : Alike s t) (cid : Nat) (v : Value) : Alike (s.sendC cid v) (t.sendC cid v) :=
  h.via (fun s => s.sendC cid v) (fun s m => sendC_withRooms s m cid v) (fun s => congrArg Core.rooms (sendC_toCore s cid v))

theorem send (h : Alike s t) (p : String) (v : Value) : Alike (s.send p v) (t.send p v) :=
  h.via (fun s => s.send p v) (fun s m => send_withRooms s m p v) (fun s => congrArg Core.rooms (send_toCore s p v))

theorem bytes (h : Alike s t) (p : String) (b : Bytes) : Alike (s.bytes p b) (t.bytes p b) :=
  h.via (fun s => s.bytes p b) (fun s m => bytes_withRooms s m p b) (fun s => congrArg Core.rooms (bytes_toCore s p b))

theorem error (h : Alike s t) (cid : Nat) (code : String) : Alike (s.error cid code) (t.error cid code) := h.sendC cid _

theorem err (h : Alike s t) (p code : String) : Alike (s.err p code) (t.err p code) := h.send p _

theorem close (h : Alike s t) (cid code : Nat) (reason : String) :
    Alike (s.close cid code reason) (t.close cid code reason) :=
  h.raw cid _

theorem reply (h : Alike s t) (p : String) (request data : Value) :
    Alike (s.reply p request data) (t.reply p request data) :=
  h.send p _

theorem broadcast (h : Alike s t) (r : Room) (v : Value) (except : Option String) (targets : Option Value) :
    Alike (s.broadcast r v except targets) (t.broadcast r v except targets) :=
  h.via (fun s => s.broadcast r v except targets) (fun s m => broadcast_withRooms s m r v except targets)
    (fun s => congrArg Core.rooms (broadcast_toCore s r v except targets))

theorem lobby (h : Alike s t) (v : Value) : Alike (s.lobby v) (t.lobby v) :=
  h.via (fun s => s.lobby v) (fun s m => lobby_withRooms s m v) (fun s => congrArg Core.rooms (lobby_toCore s v))

theorem relayBytes (h : Alike s t) (r : Room) (p : String) (addressed : String → Bool) (b : Bytes) :
    Alike (s.relayBytes r p addressed b) (t.relayBytes r p addressed b) := by
  refine Alike.foldl (fun id h => ?_) _ h
  exact Alike.ite (h.bytes id b) h

theorem offerSeats (h : Alike s t) (r : Room) : Alike (s.offerSeats r) (t.offerSeats r) := by
  refine Alike.ite (Alike.foldl (fun id h => ?_) _ h) h
  obtain ⟨m, rfl⟩ := h.exists_map
  exact Alike.ite (h.send id _) h

theorem authenticationFailed (h : Alike s t) (cid : Nat) : Alike (s.authenticationFailed cid) (t.authenticationFailed cid) :=
  (h.sendC cid _).close cid _ _

omit [Extern] in
theorem releaseMembers (h : Alike s t) (ids : List String) : Alike (s.releaseMembers ids) (t.releaseMembers ids) :=
  Alike.foldl (fun id h => h.via (fun s => { s with players := s.players.modify id releasePlayer }) (fun _ _ => rfl)
    (fun _ => rfl)) ids h

omit [Extern] in
/-- **Accounts expire alike**: whether a room keeps a seat asks for all rooms, in any order. -/
theorem expire (h : Alike s t) (now : Nat) : Alike (s.expire now) (t.expire now) := by
  have hsame : t.isExpired now = s.isExpired now := by
    obtain ⟨m, rfl⟩ := h.exists_map
    funext p
    unfold isExpired
    rw [show (s.withRooms m).rooms.values.any _ = s.rooms.values.any _ from ((h.entries.map Prod.snd).any_eq).symm]
    rfl
  unfold Server.expire
  rw [hsame]
  obtain ⟨m, rfl⟩ := h.exists_map
  refine Alike.foldl (fun id h => ?_) _ h
  exact (h.via (fun s => { s with players := s.players.shiftRemove id }) (fun _ _ => rfl) (fun _ => rfl)).dropReservations id

/-- **A room that empties is put to bed alike**, and the same rooms are evicted for it. -/
theorem keep (h : Alike s t) (env : Env) (r : Room) : Alike (s.keep env r) (t.keep env r) := by
  unfold Server.keep
  split
  · rw [show t.store = s.store by obtain ⟨m, rfl⟩ := h.exists_map; rfl]
    obtain ⟨st, ok⟩ := s.store.save env.io r
    cases ok with
    | false => exact (h.setStore st).setRoom r.id r
    | true =>
      have hkeys : st.prune env.io t.rooms.keys env.now = st.prune env.io s.rooms.keys env.now :=
        Store.prune_congr env.io st env.now (fun id => (h.entries.map Prod.fst).mem_iff.symm)
      dsimp only
      rw [hkeys]
      obtain ⟨st', gone, ok⟩ := st.prune env.io s.rooms.keys env.now
      have hevicted := (h.setStore st').record (gone.map .evicted)
      cases ok with
      | true =>
        refine Alike.foldl (fun id h => ?_) gone hevicted
        exact h.lobby _
      | false => exact hevicted
  · exact h.setRoom r.id r

/-- **An account leaves alike**, and the same member takes over. -/
theorem leave (h : Alike s t) (env : Env) (p : String) (disconnected : Bool) :
    Out.Rel Alike (s.leave env p disconnected) (t.leave env p disconnected) := by
  unfold Server.leave
  obtain ⟨m, rfl⟩ := h.exists_map
  refine Out.rel_unwrap (fun player => ?_)
  have h₁ : Alike (if disconnected then s.setPlayer p (releasePlayer player) else
      (s.setPlayer p (releasePlayer player)).dropReservations p) (if disconnected then
      (s.withRooms m).setPlayer p (releasePlayer player) else
      ((s.withRooms m).setPlayer p (releasePlayer player)).dropReservations p) := by
    cases disconnected with
    | false => exact (h.setPlayer p _).dropReservations p
    | true => exact h.setPlayer p _
  dsimp only
  generalize (if disconnected then s.setPlayer p (releasePlayer player) else
    (s.setPlayer p (releasePlayer player)).dropReservations p) = s₁ at h₁ ⊢
  generalize (if disconnected then (s.withRooms m).setPlayer p (releasePlayer player) else
    ((s.withRooms m).setPlayer p (releasePlayer player)).dropReservations p) = t₁ at h₁ ⊢
  cases player.room with
  | none => exact h₁
  | some id =>
    dsimp only
    rw [h₁.get]
    cases s₁.rooms.get id with
    | none => exact h₁
    | some r =>
      have h₂ := (h₁.removeRoom id).broadcast (departed r p disconnected) (.obj [("method", .str (if disconnected then
        "playerDisconnected" else "playerLeft")), ("data", .str p)]) none none
      have h₃ := Alike.ite (c := ownerLost (departed r p disconnected) p = true)
        (h₂.releaseMembers (departed r p disconnected).active.items) h₂
      refine Out.rel_ite (Out.rel_ite (h₃.keep env _) (h₃.lobby _)) (Out.rel_unwrap (fun first => ?_))
      exact ((Alike.ite ((h₃.record _).broadcast _ _ none none) h₃).offerSeats _).setRoom _ _

/-- **A connection ends alike.** -/
theorem disconnect (h : Alike s t) (env : Env) (cid : Nat) :
    Out.Rel Alike (s.disconnect env cid) (t.disconnect env cid) := by
  unfold Server.disconnect
  obtain ⟨m, rfl⟩ := h.exists_map
  rw [show (s.withRooms m).connections.get cid = s.connections.get cid from rfl]
  cases s.connections.get cid with
  | none => exact h
  | some c =>
    have h₁ := h.via (fun s => { s with delayed := s.delayed.filter (fun d => decide (d.cid ≠ cid)),
                                        connections := s.connections.shiftRemove cid }) (fun _ _ => rfl) (fun _ => rfl)
    dsimp only at h₁ ⊢
    cases c.player with
    | none => exact h₁
    | some id =>
      dsimp only
      rw [show (s.withRooms m).players.get id = s.players.get id from rfl]
      cases s.players.get id with
      | none => exact h₁
      | some p =>
        refine Out.rel_ite ?_ h₁
        have hleave := (h₁.setPlayer id { p with connection := none, offline := some env.now }).leave env id true
        generalize Server.leave env (Server.setPlayer _ id _) id true = o at hleave ⊢
        generalize Server.leave env (Server.setPlayer _ id _) id true = o' at hleave ⊢
        cases o <;> cases o' <;> first | exact hleave | exact hleave.elim

/-! The commands. -/

variable (h : Alike s t) (env : Env) (p : String) (d : Value)

include h

/-- **A method of the sender's room**, taken out by moving the last room into its place. -/
theorem inRoom (method : String) : Out.Rel Alike (s.inRoom env p method d) (t.inRoom env p method d) := by
  unfold Server.inRoom
  obtain ⟨m, rfl⟩ := h.exists_map
  refine Out.rel_unwrap (fun player => ?_)
  cases player.room with
  | none => exact h.err p _
  | some id =>
    dsimp only
    rw [h.get]
    cases s.rooms.get id with
    | none => exact h.err p _
    | some r =>
      exact rel_putBack id (h.takeRoom id) (roomMessage_over env (s.takeRoom id) (m.swapRemove id) p r method d)
        ((roomMessage_done env (s.takeRoom id) p r method d).mono (fun _ hdone => RoomDone.rooms hdone))

theorem binary (b : Bytes) : Out.Rel Alike (s.binary env p b) (t.binary env p b) := by
  unfold Server.binary
  obtain ⟨m, rfl⟩ := h.exists_map
  refine Out.rel_unwrap (fun player => ?_)
  cases player.room with
  | none => exact h
  | some id =>
    dsimp only
    rw [h.get]
    cases s.rooms.get id with
    | none => exact h
    | some r =>
      refine Out.rel_ite ?_ (Out.rel_ite (h.relayBytes r p _ b) (Out.rel_ite (h.err p _) ?_))
      · exact rel_putBack id (h.takeRoom id) (upload_over env (s.takeRoom id) (m.swapRemove id) p r b)
          (upload_rooms env (s.takeRoom id) p r b)
      · exact Out.rel_unwrap (fun sender => h.relayBytes r p _ _)

theorem openUdp (cid : Nat) : Out.Rel Alike (s.openUdp env cid p) (t.openUdp env cid p) := by
  unfold Server.openUdp
  obtain ⟨m, rfl⟩ := h.exists_map
  refine Out.rel_ite (h.err p _) (Out.rel_unwrap (fun player => Out.rel_ite (h.err p _) (Out.rel_unwrap (fun c => ?_))))
  exact ((h.via (fun s => { s with draws := s.draws + 1 }) (fun _ _ => rfl) (fun _ => rfl)).setConnection cid _).sendC cid _

theorem closeUdp (cid : Nat) : Out.Rel Alike (s.closeUdp cid) (t.closeUdp cid) := by
  unfold Server.closeUdp
  obtain ⟨m, rfl⟩ := h.exists_map
  exact Out.rel_unwrap (fun c => (h.setConnection cid _).sendC cid _)

omit [Extern] in
theorem pong (cid : Nat) : Out.Rel Alike (s.pong env cid p d) (t.pong env cid p d) := by
  unfold Server.pong
  obtain ⟨m, rfl⟩ := h.exists_map
  refine Out.rel_unwrap (fun c => ?_)
  cases c.ping with
  | none => exact h
  | some sent => exact Out.rel_ite (Out.rel_unwrap (fun player => (h.setConnection cid _).setPlayer p _)) h

/-- **The listing is the same**: it is sorted by identifier, and each room lies under its own. -/
theorem getRooms (hk : ∀ {id r}, s.rooms.get id = some r → r.id = id) : Alike (s.getRooms p d) (t.getRooms p d) := by
  obtain ⟨m, rfl⟩ := h.exists_map
  have hlisted : ∀ after, (s.withRooms m).listed p after = s.listed p after := fun after => by
    refine List.Perm.eq_of_pairwise (fun a b _ _ hab hba => (String.lt_asymm hab hba).elim)
      (listed_sorted (fun hr => hk (h.get ▸ hr)) after) (listed_sorted hk after) ?_
    refine (List.perm_insertionSort _ _).trans (List.Perm.trans ?_ (List.perm_insertionSort _ _).symm)
    exact (h.entries.symm.map Prod.snd).filter _
  have hloop : ∀ (rs : List Room) (data : List Value) (cursor : Value),
      (s.withRooms m).pageLoop rs data cursor = s.pageLoop rs data cursor := fun rs => by
    induction rs with
    | nil => exact fun _ _ => rfl
    | cons r rs ih =>
      intro data cursor
      simp only [pageLoop, ih]
      rfl
  unfold Server.getRooms
  dsimp only
  rw [hlisted, hloop]
  cases s.pageLoop _ [] .null with
  | none => exact h.err p _
  | some page => exact h.send p _

omit h in
theorem getSavedRooms : ∀ (ids : List Value) {s t : Server}, Alike s t →
    Out.Rel Alike (Server.getSavedRooms env p ids s) (Server.getSavedRooms env p ids t)
  | [], _, _, h => h
  | id :: ids, s, t, h => by
    refine Out.rel_unwrap (fun key => ?_)
    obtain ⟨m, rfl⟩ := h.exists_map
    rw [h.contains, h.get, show (s.withRooms m).store = s.store from rfl]
    cases (if s.rooms.contains key = true then Except.ok none else s.store.load key false env.now) with
    | error _ => exact h
    | ok loaded => exact getSavedRooms ids (h.send p _)

theorem getPlayers : Out.Rel Alike (s.getPlayers env p d) (t.getPlayers env p d) := by
  obtain ⟨m, rfl⟩ := h.exists_map
  have hlookup : ∀ ids : List Value, (s.withRooms m).lookupPlayers env ids = s.lookupPlayers env ids := fun ids => by
    induction ids with
    | nil => rfl
    | cons id ids ih =>
      simp only [lookupPlayers, ih]
      rfl
  unfold Server.getPlayers
  simp only [hlookup]
  refine Out.rel_unwrap (fun found => ?_)
  cases found with
  | error _ => exact h
  | ok selected => exact h.send p _

theorem changeName : Out.Rel Alike (s.changeName env p d) (t.changeName env p d) := by
  unfold Server.changeName
  obtain ⟨m, rfl⟩ := h.exists_map
  refine Out.rel_unwrap (fun player => Out.rel_unwrap (fun name => ?_))
  have h₁ := h.setPlayer p { player with name := name }
  dsimp only
  rw [show ((s.withRooms m).setPlayer p { player with name := name }).store = s.store from rfl,
    show (s.setPlayer p { player with name := name }).store = s.store from rfl]
  obtain ⟨st, ok⟩ := s.store.saveAccount env.io { player with name := name }
  cases ok with
  | false => exact h₁.setStore st
  | true =>
    dsimp only
    rw [h₁.get]
    cases player.room.bind (s.setPlayer p { player with name := name }).rooms.get with
    | none => exact h₁.setStore st
    | some r => exact (h₁.setStore st).broadcast r _ none none

/-- The end of `setPushDevice`. -/
theorem saved : Out.Rel Alike
    (Out.unwrap (s.players.get p) fun player => match s.store.saveAccount env.io player with
      | (st, false) => .err { s with store := st }
      | (st, true) => .ok ({ s with store := st }.send p (.obj [("method", .str "pushDeviceUpdated")])))
    (Out.unwrap (t.players.get p) fun player => match t.store.saveAccount env.io player with
      | (st, false) => .err { t with store := st }
      | (st, true) => .ok ({ t with store := st }.send p (.obj [("method", .str "pushDeviceUpdated")]))) := by
  obtain ⟨m, rfl⟩ := h.exists_map
  refine Out.rel_unwrap (fun player => ?_)
  rw [show (s.withRooms m).store = s.store from rfl]
  obtain ⟨st, ok⟩ := s.store.saveAccount env.io player
  cases ok with
  | false => exact h.setStore st
  | true => exact (h.setStore st).send p _

theorem setPushDevice : Out.Rel Alike (s.setPushDevice env p d) (t.setPushDevice env p d) := by
  unfold Server.setPushDevice
  obtain ⟨m, rfl⟩ := h.exists_map
  refine Out.rel_ite (h.err p _) (Out.rel_unwrap (fun device => Out.rel_unwrap (fun player => ?_)))
  have h₁ := Alike.ite (c := (d.idx "token").isNull = true)
    (h.setPlayer p { player with devices := player.devices.shiftRemove device })
    (h.via (fun s => { s with players := (s.players.mapVals (fun _ a =>
      claimToken p device (d.idx "token") a)).modify p (fun a => registerDevice a device d) }) (fun _ _ => rfl)
      (fun _ => rfl))
  exact h₁.saved env p

theorem getModerationTicket : Out.Rel Alike (s.getModerationTicket env p d) (t.getModerationTicket env p d) := by
  unfold Server.getModerationTicket
  have hreport : ∀ target room, t.mayReport p target room = s.mayReport p target room := fun target room => by
    unfold mayReport
    rw [h.get]
  obtain ⟨m, rfl⟩ := h.exists_map
  simp only [hreport]
  exact Out.rel_unwrap (fun target => Out.rel_unwrap (fun room => Out.rel_ite (h.reply p _ _) (h.reply p _ _)))

omit h [Extern] in
/-- An identifier is drawn alike: whether it is in use asks for one room. -/
theorem drawId {k k' : Server → String → Out Server} (h : Alike s t)
    (hk : ∀ {s t} id, Alike s t → Out.Rel Alike (k s id) (k' t id)) :
    Out.Rel Alike (s.drawId env k) (t.drawId env k') := by
  have hused : ∀ id, t.inUse id = s.inUse id := fun id => by
    unfold Core.inUse
    rw [h.contains]
    obtain ⟨m, rfl⟩ := h.exists_map
    rfl
  unfold Server.drawId
  dsimp only
  rw [hused]
  obtain ⟨m, rfl⟩ := h.exists_map
  exact Out.rel_ite rfl (hk _ (h.via (fun s => { s with
    draws := s.draws + 1, drawn := (env.uuid s.draws).text :: s.drawn }) (fun _ _ => rfl) (fun _ => rfl)))

theorem seatIn (id : String) (player : Player) (loaded : Option Room) (r : Room) :
    Alike (s.seatIn env p id player loaded r) (t.seatIn env p id player loaded r) := by
  have h₁ := ((((h.record (entryEvents loaded r p)).setRoom id (joined r p)).setPlayer p { player with
    room := some id, entered := some env.now, version := player.version + 1 }).broadcast (joined r p)
    (.obj [("method", .str "playerEnter"), ("data", Player.dto { player with
      room := some id, entered := some env.now, version := player.version + 1 })]) (some p) none)
  unfold Server.seatIn
  dsimp only
  rw [h₁.dto]
  exact h₁.send p _

/-- The end of `enter`. -/
theorem entrance (id : String) (password : Value) (player : Player) (loaded : Option Room) : Out.Rel Alike
    (match s.rooms.get id with
      | none => .ok (s.err p "no_room")
      | some r => match entryError r p password with
        | some e => .ok (if r.active.isEmpty && r.persistent then (s.err p e).removeRoom id else s.err p e)
        | none => .ok (s.seatIn env p id player loaded r))
    (match t.rooms.get id with
      | none => .ok (t.err p "no_room")
      | some r => match entryError r p password with
        | some e => .ok (if r.active.isEmpty && r.persistent then (t.err p e).removeRoom id else t.err p e)
        | none => .ok (t.seatIn env p id player loaded r)) := by
  rw [h.get]
  cases s.rooms.get id with
  | none => exact h.err p _
  | some r =>
    dsimp only
    cases entryError r p password with
    | some e => exact Alike.ite ((h.err p e).removeRoom id) (h.err p e)
    | none => exact h.seatIn env p id player loaded r

/-- **An account enters a room alike**, in memory or read from its file. -/
theorem enter (id : String) (password : Value) : Out.Rel Alike (s.enter env p id password) (t.enter env p id password) := by
  unfold Server.enter
  obtain ⟨m, rfl⟩ := h.exists_map
  refine Out.rel_unwrap (fun player => ?_)
  cases player.room with
  | some room => exact h.err p _
  | none =>
    dsimp only
    rw [h.contains, show (s.withRooms m).store = s.store from rfl]
    cases (if s.rooms.contains id = true then Except.ok none else s.store.load id true env.now) with
    | error _ => exact h
    | ok loaded =>
      cases loaded with
      | none => exact h.entrance env p id password player none
      | some r => exact (h.setRoom id r).entrance env p id password player (some r)

theorem createRoom : Out.Rel Alike (s.createRoom env p d) (t.createRoom env p d) := by
  unfold Server.createRoom
  obtain ⟨m, rfl⟩ := h.exists_map
  rw [show (s.withRooms m).rooms.size = s.rooms.size from h.entries.symm.length_eq]
  refine Out.rel_unwrap (fun player => Out.rel_ite (h.err p _) (Out.rel_ite (h.err p _) ?_))
  refine Out.rel_unwrap (fun name => Out.rel_unwrap (fun max => Alike.drawId env h (fun {s t} id h => ?_)))
  obtain ⟨m, rfl⟩ := h.exists_map
  refine Out.rel_ite (h.err p _) (Out.rel_andThen (((h.record _).setRoom id _).enter env p id _) (fun s t h => ?_))
  rw [h.get]
  refine Out.rel_unwrap (fun r => ?_)
  obtain ⟨m, rfl⟩ := h.exists_map
  exact h.lobby _

/-- **Every method is handled alike.** -/
theorem handle (hk : ∀ {id r}, s.rooms.get id = some r → r.id = id) (cid : Nat) (v : Value) :
    Out.Rel Alike (s.handle env cid p v) (t.handle env cid p v) := by
  refine Out.rel_unwrap (fun method => Out.rel_ite (h.openUdp env p cid) (Out.rel_ite (h.closeUdp cid) ?_))
  refine Out.rel_ite (h.pong env p _ cid) (Out.rel_ite (h.getRooms p _ hk) (Out.rel_ite ?_ ?_))
  · exact Out.rel_unwrap (fun ids => Alike.getSavedRooms env p ids h)
  refine Out.rel_ite (h.getPlayers env p _) (Out.rel_ite (h.changeName env p _) (Out.rel_ite ?_ ?_))
  · exact Out.rel_unwrap (fun id => h.enter env p id _)
  refine Out.rel_ite (h.leave env p false) (Out.rel_ite (h.setPushDevice env p _) ?_)
  exact Out.rel_ite (h.getModerationTicket env p _) (Out.rel_ite (h.createRoom env p _) (h.inRoom env p _ method))

/-! Authentication. -/

omit h in
/-- A connection that is bound learns of its room. -/
theorem welcome (h : Alike s t) (cid : Nat) (room : Option String) : Out.Rel Alike
    (match room.bind s.rooms.get with
      | some r => .ok (s.sendC cid (.obj [("method", .str "onRoomEnter"), ("data", s.dto r)]))
      | none => .ok s)
    (match room.bind t.rooms.get with
      | some r => .ok (t.sendC cid (.obj [("method", .str "onRoomEnter"), ("data", t.dto r)]))
      | none => .ok t) := by
  rw [h.get, h.dto]
  cases room.bind s.rooms.get with
  | none => exact h
  | some r => exact h.sendC cid _

theorem bind (cid : Nat) (id : String) (created : Bool) :
    Out.Rel Alike (Server.bind env s cid id created) (Server.bind env t cid id created) := by
  unfold Server.bind
  obtain ⟨m, rfl⟩ := h.exists_map
  refine Out.rel_unwrap (fun player => Out.rel_unwrap (fun c => ?_))
  have h₁ := (h.setPlayer id { player with connection := some cid, offline := none, rtt := none }).setConnection cid
    { c with player := some id }
  dsimp only
  generalize Server.setConnection _ cid _ = s₁ at h₁ ⊢
  generalize Server.setConnection _ cid _ = t₁ at h₁ ⊢
  obtain ⟨m₁, rfl⟩ := h₁.exists_map
  rw [show (s₁.withRooms m₁).store = s₁.store from rfl]
  generalize Store.saveAccount env.io s₁.store _ = saved
  obtain ⟨st, ok⟩ := saved
  cases ok with
  | false => exact h₁.setStore st
  | true =>
    have h₂ := Alike.ite (c := created = true) ((h₁.setStore st).sendC cid (.obj [("method", .str "accountCreated"),
      ("data", .obj [("name", .str player.name), ("playerId", .str id), ("password", .str player.password)])]))
      (h₁.setStore st)
    have hgreet : ∀ {s t : Server}, Alike s t → Alike (s.sendC cid s.onConnected) (t.sendC cid t.onConnected) := fun h => by
      obtain ⟨m, rfl⟩ := h.exists_map
      exact h.sendC cid _
    exact (hgreet h₂).welcome cid player.room

omit h in
theorem replaceSession (h : Alike s t) (player : Player) : Alike (s.replaceSession player) (t.replaceSession player) := by
  unfold Server.replaceSession
  cases player.connection with
  | none => exact h
  | some old => exact (h.close old _ _).via (fun s => s.purgeDelayed old) (fun _ _ => rfl) (fun _ => rfl)

/-- **An account returns alike**, and leaves its fixed game alike if it was still inside. -/
theorem reconnect (cid : Nat) (player : Player) :
    Out.Rel Alike (s.reconnect env cid player d) (t.reconnect env cid player d) := by
  have hback : ∀ {s t : Server}, Alike s t → ∀ a, Out.Rel Alike
      (Server.bind env ((s.replaceSession a).setPlayer player.id (renamed a d)) cid player.id false)
      (Server.bind env ((t.replaceSession a).setPlayer player.id (renamed a d)) cid player.id false) :=
    fun h a => ((h.replaceSession a).setPlayer player.id (renamed a d)).bind env cid player.id false
  unfold Server.reconnect
  obtain ⟨m, rfl⟩ := h.exists_map
  have h₁ := Alike.ite (c := s.players.contains player.id = true) h (h.setPlayer player.id player)
  dsimp only
  rw [show (s.withRooms m).players = s.players from rfl]
  generalize (if s.players.contains player.id = true then s else s.setPlayer player.id player) = s₁ at h₁ ⊢
  generalize (if s.players.contains player.id = true then _ else Server.setPlayer _ player.id player) = t₁ at h₁ ⊢
  rw [h₁.get]
  refine Out.rel_andThen (Out.rel_ite (h₁.leave env player.id true) h₁) (fun s t h => ?_)
  have hplayers : t.players = s.players := by
    obtain ⟨m, rfl⟩ := h.exists_map
    rfl
  rw [hplayers]
  exact Out.rel_unwrap (fun a => hback h a)

/-- **An authentication succeeds or fails alike.** -/
theorem auth (cid : Nat) : Out.Rel Alike (s.auth env cid d) (t.auth env cid d) := by
  unfold Server.auth
  have hexp := h.expire env.now
  generalize s.expire env.now = s₁ at hexp ⊢
  generalize t.expire env.now = t₁ at hexp ⊢
  obtain ⟨m, rfl⟩ := hexp.exists_map
  dsimp only
  refine Out.rel_ite (Out.rel_ite ((hexp.error cid _).close cid _ _) ?_) ?_
  · exact Alike.drawId env hexp (fun id h => (h.setPlayer id _).bind env cid id true)
  · rw [show (s₁.withRooms m).retainedAccount env = s₁.retainedAccount env from rfl]
    cases s₁.retainedAccount env (((d.idx "playerId").asStr).getD "") with
    | error _ => exact hexp
    | ok found =>
      cases found with
      | none => exact hexp.authenticationFailed cid
      | some player => exact Out.rel_ite (hexp.authenticationFailed cid) (hexp.reconnect env d cid player)

/-! Frames. -/

omit h env d p in
theorem reportErr {o o' : Out Server} (cid : Nat) (ho : Out.Rel Alike o o') :
    Out.Rel Alike (Server.reportErr cid o) (Server.reportErr cid o') := by
  cases o <;> cases o' <;> first | exact ho.elim | skip
  · exact ho
  · exact Alike.error ho cid _
  · exact ho

variable (hk : ∀ {id r}, s.rooms.get id = some r → r.id = id) (cid : Nat)

include hk

omit p d in
theorem dispatch (frame : Frame) (parsed : Option Value) :
    Out.Rel Alike (s.dispatch env cid frame parsed) (t.dispatch env cid frame parsed) := by
  unfold Server.dispatch
  obtain ⟨m, rfl⟩ := h.exists_map
  rw [show (s.withRooms m).connections = s.connections from rfl]
  cases (s.connections.get cid).bind (·.player) with
  | none => exact h
  | some p =>
    cases frame with
    | text text => exact Out.rel_unwrap (fun v => Alike.reportErr cid (h.handle env p hk cid v))
    | binary b => exact Alike.reportErr cid (h.binary env p b)
    | ping b => exact h
    | pong b => exact h

omit d in
/-- A frame is executed, or queued, alike. -/
theorem submit (frame : Frame) (roomScoped immediate : Bool) (parsed : Option Value) :
    Out.Rel Alike (s.submit env cid p frame roomScoped immediate parsed)
      (t.submit env cid p frame roomScoped immediate parsed) := by
  have hdispatch := h.dispatch env hk cid frame parsed
  unfold Server.submit
  obtain ⟨m, rfl⟩ := h.exists_map
  refine Out.rel_ite (Out.rel_unwrap (fun c => Out.rel_ite (h.close cid _ _) (Out.rel_unwrap (fun player => ?_)))) hdispatch
  exact (h.setConnection cid { c with delayed := c.delayed + frame.len, pending := c.pending + 1 }).via
    (fun u => { u with delayed := s.delayed ++
      [{ time := env.now + s.config.sendDelayMs, cid := cid, version := player.version, roomScoped := roomScoped,
         frame := frame, size := frame.len }] }) (fun _ _ => rfl) (fun _ => rfl)

omit p d in
theorem receiveText (player : Option String) (text : String) :
    Out.Rel Alike (s.receiveText env cid player text) (t.receiveText env cid player text) := by
  unfold Server.receiveText
  cases Protocol.parse text with
  | none => exact h.error cid _
  | some v =>
    have hauth := h.auth env (v.idx "data") cid
    have hsubmit := fun p => h.submit env p hk cid (.text text)
    obtain ⟨m, rfl⟩ := h.exists_map
    refine Out.rel_ite (h.error cid _) (Out.rel_ite (h.error cid _) (Out.rel_unwrap (fun method => ?_)))
    cases player with
    | none => exact Out.rel_ite (Alike.reportErr cid hauth) (h.error cid _)
    | some p => exact Out.rel_ite (h.error cid _) (hsubmit p _ _ _)

omit p d in
/-- **A frame is received alike.** -/
theorem receive (frame : Frame) : Out.Rel Alike (s.receive env cid frame) (t.receive env cid frame) := by
  unfold Server.receive
  obtain ⟨m, rfl⟩ := h.exists_map
  rw [show (s.withRooms m).connections.get cid = s.connections.get cid from rfl]
  cases s.connections.get cid with
  | none => exact h
  | some c =>
    have h₁ := h.setConnection cid (countFrame c env.now)
    refine Out.rel_ite h (Out.rel_ite (h₁.close cid _ _) ?_)
    cases frame with
    | ping b => exact h₁.raw cid _
    | pong b => exact h₁
    | text text => exact Out.rel_ite (h₁.close cid _ _) (h₁.receiveText env hk cid _ text)
    | binary b =>
      refine Out.rel_ite (h₁.close cid _ _) ?_
      cases (countFrame c env.now).player with
      | none => exact h₁.error cid _
      | some p => exact Out.rel_ite (h₁.error cid _) (h₁.submit env p hk cid _ _ _ _)

end Alike

section Whole

variable {s t s' : Server}

/-- A step other than maintenance, which visits the rooms in their order. -/
theorem Alike.step (h : Alike s t) (hk : s.world.Keyed) {env : Env} {c : Command} (hc : c ≠ .sweep)
    (hs : s.step env c = some s') : ∃ t', t.step env c = some t' ∧ Alike s' t' := by
  cases c with
  | connected cid =>
    have hnew : Alike (s.connected env cid) (t.connected env cid) := h.setConnection cid _
    obtain ⟨m, rfl⟩ := h.exists_map
    have hs' : (if s.connections.contains cid then none else some (s.connected env cid)) = some s' := hs
    show ∃ t', (if s.connections.contains cid then none else some ((s.withRooms m).connected env cid)) = some t' ∧ _
    split at hs'
    · cases hs'
    · rename_i hc
      cases hs'
      rw [if_neg hc]
      exact ⟨_, rfl, hnew⟩
  | receive cid frame => exact (h.receive env hk.rooms cid frame).state hs
  | disconnect cid => exact (h.disconnect env cid).state hs
  | sweep => exact absurd rfl hc

/-- **Commands other than maintenance, one after the other, leave the servers alike.** -/
theorem Alike.exec {config : Config} : ∀ {l : List (Env × Command)} {s t : Server}, (∀ e ∈ l, e.2 ≠ .sweep) → Alike s t →
    s.world.Base config → Server.exec (fun _ _ _ => true) l s = some s' →
    ∃ t', Server.exec (fun _ _ _ => true) l t = some t' ∧ Alike s' t'
  | [], _, t, _, h, _, hs => by
    cases hs
    exact ⟨t, rfl, h⟩
  | (env, c) :: l, s, t, hl, h, hb, hs => by
    obtain ⟨u, hu, hs⟩ := Option.bind_eq_some_iff.1 (show (s.step env c).bind (Server.exec _ l) = some s' from hs)
    obtain ⟨v, hv, hv'⟩ := h.step hb.keyed (hl _ List.mem_cons_self) hu
    obtain ⟨t', ht', hend⟩ := Alike.exec (fun e he => hl e (List.mem_cons_of_mem _ he)) hv' (hb.chain (step_chain hb hu)) hs
    exact ⟨t', Option.bind_eq_some_iff.2 ⟨v, hv, ht'⟩, hend⟩

end Whole

/-- **The order of the room map is not observable**: whatever frame a connection sends and whichever connection ends, the
outcomes are again the same up to that order, the frames sent included.  Every reachable server is `Keyed` (`Run.base`),
and whether frames are delayed makes no difference. -/
theorem room_order_is_unobservable {s t : Server} (h : Alike s t) (hk : s.world.Keyed) (env : Env) (cid : Nat) :
    (∀ frame, Out.Rel Alike (s.receive env cid frame) (t.receive env cid frame)) ∧
      Out.Rel Alike (s.disconnect env cid) (t.disconnect env cid) :=
  ⟨h.receive env hk.rooms cid, h.disconnect env cid⟩

/-- The two rooms, in this order, around an account. -/
def pair (first second : Room) : Server :=
  { alone with rooms := (IndexMap.empty.insert first.id first).insert second.id second }

def annex : Room := Room.new Trace.guest "Annex" Trace.guest 4 .null .null 0

def getRoomsFrame : Value := message "getRooms" []

omit [Extern] in
theorem pair_keyed (first second : Room) : (pair first second).world.Keyed := by
  refine ⟨fun {id q} hq => ?_, fun {id r} hr => ?_⟩
  · have hq' : ((IndexMap.empty.insert Trace.account Trace.speaker).get id).map Player.seat = some q := hq
    rw [IndexMap.get_insert] at hq'
    split at hq'
    · cases hq'
      exact Eq.symm ‹_›
    · cases hq'
  · have hr' : ((IndexMap.empty.insert first.id first).insert second.id second).get id = some r := hr
    rw [IndexMap.get_insert, IndexMap.get_insert] at hr'
    split at hr'
    · cases hr'
      exact Eq.symm ‹_›
    split at hr'
    · cases hr'
      exact Eq.symm ‹_›
    · cases hr'

omit [Extern] in
theorem room_order_is_unobservable_swapped :
    letI := Extern.reading [getRoomsFrame]
    Out.Rel Alike ((pair Trace.arena annex).receive (Env.plain 0) 1 (.text (plainText getRoomsFrame)))
        ((pair annex Trace.arena).receive (Env.plain 0) 1 (.text (plainText getRoomsFrame))) ∧
      Out.Rel Alike ((pair Trace.arena annex).disconnect (Env.plain 0) 1)
        ((pair annex Trace.arena).disconnect (Env.plain 0) 1) := by
  let _ := Extern.reading [getRoomsFrame]
  have h := room_order_is_unobservable (s := pair Trace.arena annex) (t := pair annex Trace.arena)
    ⟨List.Perm.swap _ _ _, rfl⟩ (pair_keyed _ _) (Env.plain 0) 1
  exact ⟨h.1 _, h.2⟩

end Server
end Relay
