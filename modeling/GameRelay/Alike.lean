import GameRelay.Pages
/-!
# Alike — servers that differ in the order of their rooms

`Alike` relates two such servers.  Sending and the methods of a room that has been taken out do not look at the map: they
do over another map what they did over the first (`withRooms`, `roomMessage_over`).
-/
namespace Relay

namespace Out

/-- The same outcome, in related states. -/
def Rel {α β : Type} (R : α → β → Prop) : Out α → Out β → Prop
  | .ok a, .ok b => R a b
  | .err a, .err b => R a b
  | .halt h, .halt h' => h = h'
  | _, _ => False

variable {α β γ : Type}

theorem rel_unwrap {R : α → β → Prop} {x : Option γ} {k : γ → Out α} {k' : γ → Out β} (h : ∀ c, Rel R (k c) (k' c)) :
    Rel R (unwrap x k) (unwrap x k') := by
  cases x with
  | none => exact rfl
  | some c => exact h c

theorem rel_ite {R : α → β → Prop} {c : Prop} [Decidable c] {o o₁ : Out α} {o' o₁' : Out β} (h : Rel R o o')
    (h₁ : Rel R o₁ o₁') : Rel R (if c then o else o₁) (if c then o' else o₁') := by
  split
  · exact h
  · exact h₁

theorem rel_andThen {R : α → α → Prop} {o o' : Out α} {k k' : α → Out α} (h : Rel R o o')
    (hk : ∀ a b, R a b → Rel R (k a) (k' b)) : Rel R (andThen o k) (andThen o' k') := by
  cases o <;> cases o' <;> first | exact h.elim | skip
  · exact hk _ _ h
  · exact h
  · exact h

theorem Rel.state {R : α → β → Prop} : ∀ {o : Out α} {o' : Out β}, Rel R o o' → ∀ {a}, o.state = some a →
    ∃ b, o'.state = some b ∧ R a b
  | .ok _, .ok b, h, _, rfl => ⟨b, rfl, h⟩
  | .err _, .err b, h, _, rfl => ⟨b, rfl, h⟩

theorem rel_mapOut {R : α → α → Prop} {Q : β → β → Prop} {f f' : α → β} {o o' : Out α} (h : Rel R o o')
    (hf : ∀ a b, R a b → Q (f a) (f' b)) : Rel Q (Server.mapOut f o) (Server.mapOut f' o') := by
  cases o <;> cases o' <;> first | exact h.elim | skip
  · exact hf _ _ h
  · exact hf _ _ h
  · exact h

end Out

namespace IndexMap

variable {κ α : Type} [DecidableEq κ] {m m' : IndexMap κ α}

/-- Maps with the same entries in another order. -/
theorem get_of_perm (h : m.entries.Perm m'.entries) : m.get = m'.get := by
  funext k
  apply Option.ext
  intro v
  rw [← mem_entries, ← mem_entries]
  exact h.mem_iff

theorem perm_of_get (h : m.get = m'.get) : m.entries.Perm m'.entries := by
  refine (List.perm_ext_iff_of_nodup m.nodup.of_map m'.nodup.of_map).2 (fun e => ?_)
  show (e.1, e.2) ∈ _ ↔ (e.1, e.2) ∈ _
  rw [mem_entries, mem_entries, h]

theorem insert_perm (h : m.entries.Perm m'.entries) (k : κ) (v : α) :
    (m.insert k v).entries.Perm (m'.insert k v).entries :=
  perm_of_get (by rw [get_insert_eq, get_insert_eq, get_of_perm h])

theorem shiftRemove_perm (h : m.entries.Perm m'.entries) (k : κ) :
    (m.shiftRemove k).entries.Perm (m'.shiftRemove k).entries :=
  h.filter _

/-- Moving the last entry into the place of the removed one is one more change of order. -/
theorem swapRemove_perm (h : m.entries.Perm m'.entries) (k : κ) :
    (m.swapRemove k).entries.Perm (m'.swapRemove k).entries :=
  perm_of_get (by rw [get_swapRemove_eq, get_swapRemove_eq, get_of_perm h])

end IndexMap

/-- A pruning pass asks which rooms are active, not in which order. -/
theorem Store.prune_congr [Extern] (io : Nat → Bool) (st : Store) {active active' : List String} (now : Nat)
    (h : ∀ id, id ∈ active ↔ id ∈ active') : st.prune io active now = st.prune io active' now := by
  simp only [Store.prune, h]

namespace Server

/-- The same server over another map of rooms. -/
def withRooms (s : Server) (m : IndexMap String Room) : Server := { s with rooms := m }

/-- The servers differ at most in the order of their rooms. -/
structure Alike (s t : Server) : Prop where
  entries : s.rooms.entries.Perm t.rooms.entries
  rest : t = s.withRooms t.rooms

variable [Extern]

/-! Sending does not look at the map. -/

section Sending

variable (s : Server) (m : IndexMap String Room)

@[simp] theorem raw_withRooms (cid : Nat) (msg : Message) : (s.withRooms m).raw cid msg = (s.raw cid msg).withRooms m := by
  unfold raw
  rw [show (s.withRooms m).connections = s.connections from rfl]
  cases s.connections.get cid with
  | none => rfl
  | some c =>
    by_cases hclosing : c.closing = true
    · simp only [hclosing, if_true]
      rfl
    by_cases hfull : s.config.maxBufferedBytes < c.queued + msg.cost
    · simp only [hclosing, withRooms, hfull, if_true]
      rfl
    · by_cases hreceiver : c.receiver = true <;> simp only [hclosing, withRooms, hfull, hreceiver, if_true] <;> rfl

@[simp] theorem encoded_withRooms (v : Value) : (s.withRooms m).encoded v = s.encoded v := rfl

omit [Extern] in
@[simp] theorem connectionOf_withRooms (p : String) : (s.withRooms m).connectionOf p = s.connectionOf p := rfl

@[simp] theorem sendC_withRooms (cid : Nat) (v : Value) : (s.withRooms m).sendC cid v = (s.sendC cid v).withRooms m := by
  unfold sendC
  rw [encoded_withRooms, encoded_withRooms]
  cases (s.encoded v).or (s.encoded (errorData "response_too_large")) with
  | none => rfl
  | some msg => exact raw_withRooms s m cid msg

@[simp] theorem send_withRooms (p : String) (v : Value) : (s.withRooms m).send p v = (s.send p v).withRooms m := by
  unfold send
  rw [connectionOf_withRooms]
  cases s.connectionOf p with
  | none => rfl
  | some cid => exact sendC_withRooms s m cid v

@[simp] theorem bytes_withRooms (p : String) (b : Bytes) : (s.withRooms m).bytes p b = (s.bytes p b).withRooms m := by
  unfold bytes
  rw [show (s.withRooms m).config = s.config from rfl, connectionOf_withRooms]
  cases s.config.fits b.length with
  | false => rfl
  | true =>
    cases s.connectionOf p with
    | none => rfl
    | some cid => exact raw_withRooms s m cid _

@[simp] theorem err_withRooms (p code : String) : (s.withRooms m).err p code = (s.err p code).withRooms m :=
  send_withRooms s m p _

@[simp] theorem reply_withRooms (p : String) (request data : Value) :
    (s.withRooms m).reply p request data = (s.reply p request data).withRooms m := send_withRooms s m p _

@[simp] theorem errorReply_withRooms (p : String) (req : Value) (code : String) :
    (s.withRooms m).errorReply p req code = (s.errorReply p req code).withRooms m := reply_withRooms s m p req _

omit [Extern] in
theorem foldl_withRooms {α : Type} {f g : Server → α → Server} (h : ∀ s a, f (s.withRooms m) a = (g s a).withRooms m) :
    ∀ (l : List α) (s : Server), l.foldl f (s.withRooms m) = (l.foldl g s).withRooms m
  | [], _ => rfl
  | a :: l, s => by rw [List.foldl_cons, List.foldl_cons, h, foldl_withRooms h l]

@[simp] theorem broadcastFrame_withRooms (r : Room) (msg : Message) (except : Option String) (targets : Option Value) :
    (s.withRooms m).broadcastFrame r msg except targets = (s.broadcastFrame r msg except targets).withRooms m := by
  refine foldl_withRooms m (fun s id => ?_) _ s
  split
  · rw [show (s.withRooms m).memberConnection r.id id = s.memberConnection r.id id from rfl]
    cases s.memberConnection r.id id with
    | none => rfl
    | some c => exact raw_withRooms s m c msg
  · rfl

@[simp] theorem broadcast_withRooms (r : Room) (v : Value) (except : Option String) (targets : Option Value) :
    (s.withRooms m).broadcast r v except targets = (s.broadcast r v except targets).withRooms m := by
  unfold broadcast
  rw [encoded_withRooms]
  cases s.encoded v with
  | none => rfl
  | some msg => exact broadcastFrame_withRooms s m r msg except targets

@[simp] theorem lobby_withRooms (v : Value) : (s.withRooms m).lobby v = (s.lobby v).withRooms m := by
  unfold lobby
  rw [encoded_withRooms]
  cases s.encoded v with
  | none => rfl
  | some msg =>
    refine foldl_withRooms m (fun s p => ?_) _ s
    cases p.connection with
    | none => rfl
    | some c => exact raw_withRooms s m c msg

theorem relay_withRooms (p : String) (v : Value) :
    (s.withRooms m).relay p v = ((s.relay p v).1.withRooms m, (s.relay p v).2) := by
  unfold relay
  rw [encoded_withRooms]
  cases s.encoded v with
  | none => exact congrArg (·, none) (err_withRooms s m p _)
  | some msg => rfl

@[simp] theorem relayTo_withRooms (p : String) (r : Room) (v : Value) (except : Option String) (targets : Option Value) :
    (s.withRooms m).relayTo p r v except targets = (s.relayTo p r v except targets).withRooms m := by
  unfold relayTo
  rw [relay_withRooms]
  obtain ⟨t, out⟩ := s.relay p v
  cases out with
  | none => rfl
  | some msg => exact broadcastFrame_withRooms t m r msg except targets

end Sending

/-! Nor do the methods of a room. -/

section Methods

/-- The same room, and the same server over the other map. -/
def Over (m : IndexMap String Room) (a b : Server × Room) : Prop := b.1 = a.1.withRooms m ∧ b.2 = a.2

variable (env : Env) (s : Server) (m : IndexMap String Room) (p : String) (r : Room)

/-- The methods of a room do the same over the other map. -/
abbrev Follows (m : IndexMap String Room) : Out (Server × Room) → Out (Server × Room) → Prop := Out.Rel (Over m)

theorem err_over (code : String) : Follows m (.ok (s.err p code, r)) (.ok ((s.withRooms m).err p code, r)) :=
  ⟨err_withRooms s m p code, rfl⟩

theorem errorReply_over (req : Value) (code : String) (r' : Room) :
    Follows m (.ok (s.errorReply p req code, r')) (.ok ((s.withRooms m).errorReply p req code, r')) :=
  ⟨errorReply_withRooms s m p req code, rfl⟩

theorem ownerOnly_over {k k' : Out (Server × Room)} (h : Follows m k k') :
    Follows m (s.ownerOnly p r k) ((s.withRooms m).ownerOnly p r k') :=
  Out.rel_ite (err_over s m p r _) h

theorem session_over (method : String) (d : Value) :
    Follows m (s.session env p r method d) ((s.withRooms m).session env p r method d) := by
  unfold session
  refine Out.rel_ite (errorReply_over s m p _ _ r) (Out.rel_ite ⟨reply_withRooms s m p _ _, rfl⟩ ?_)
  refine Out.rel_ite ?_ (Out.rel_ite (errorReply_over s m p _ _ r) (Out.rel_ite ?_ ?_))
  · unfold getSessionChunk
    refine Out.rel_unwrap (fun off => Out.rel_ite (errorReply_over s m p _ _ r) (Out.rel_unwrap (fun id => ?_)))
    exact ⟨bytes_withRooms s m p _, rfl⟩
  · unfold beginSession
    refine Out.rel_ite (errorReply_over s m p _ _ r) (Out.rel_unwrap (fun size => ?_))
    refine Out.rel_ite (errorReply_over s m p _ _ r) (Out.rel_unwrap (fun id => ?_))
    exact ⟨reply_withRooms (s.record _) m p _ _, rfl⟩
  · unfold commitSession
    dsimp only
    cases r.upload.filter (committable r p (d.idx "requestId")) with
    | none => exact errorReply_over s m p _ _ r
    | some u =>
      refine Out.rel_unwrap (fun a => Out.rel_unwrap (fun outsider => Out.rel_ite (errorReply_over s m p _ _ r) ?_))
      rw [show (s.withRooms m).store = s.store from rfl]
      obtain ⟨st, ok⟩ := s.store.commit env.io r (d.idx "scheduled") (d.idx "immediate")
      cases ok with
      | false => exact errorReply_over { s with store := st } m p _ _ r
      | true =>
        refine ⟨?_, rfl⟩
        dsimp only
        rw [show ({ s.withRooms m with store := st } : Server).record _ =
          (({ s with store := st } : Server).record _).withRooms m from rfl, reply_withRooms, broadcast_withRooms]

omit [Extern] in
theorem pushDevices_over (notice : Value) (room event id : String) (online : Bool) :
    ∀ (ds : List (String × Value)) (s : Server), Out.Rel (fun a b => b = a.withRooms m)
      (pushDevices notice room event id online ds s) (pushDevices notice room event id online ds (s.withRooms m))
  | [], _ => rfl
  | (_, _) :: ds, s =>
    Out.rel_ite (pushDevices_over notice room event id online ds s)
      (Out.rel_unwrap (fun _ => pushDevices_over notice room event id online ds _))

omit [Extern] in
theorem pushTargets_over (notice : Value) (room event p : String) :
    ∀ (vs : List Value) (s : Server), Out.Rel (fun a b => b = a.withRooms m)
      (pushTargets notice room event p vs s) (pushTargets notice room event p vs (s.withRooms m))
  | [], _ => rfl
  | v :: vs, s => by
    refine Out.rel_unwrap (fun id => Out.rel_ite (pushTargets_over notice room event p vs s) ?_)
    rw [show (s.withRooms m).players = s.players from rfl]
    cases s.players.get id with
    | none => exact pushTargets_over notice room event p vs s
    | some a =>
      refine Out.rel_andThen (pushDevices_over m notice room event id _ _ s) ?_
      rintro t _ rfl
      exact pushTargets_over notice room event p vs t

theorem notifyPlayers_over (d : Value) :
    Follows m (s.notifyPlayers env p r d) ((s.withRooms m).notifyPlayers env p r d) := by
  unfold notifyPlayers
  refine Out.rel_ite (err_over s m p r _) (ownerOnly_over s m p r (Out.rel_unwrap (fun outsider => ?_)))
  refine Out.rel_ite (err_over s m p r _) (Out.rel_unwrap (fun targets => Out.rel_unwrap (fun event => ?_)))
  refine Out.rel_ite ⟨rfl, rfl⟩ (Out.rel_ite (err_over s m p r _) ?_)
  exact Out.rel_mapOut (pushTargets_over m d r.id event p targets s) (fun _ _ h => ⟨h, rfl⟩)

theorem updateRoom_over (d : Value) : Follows m (s.updateRoom p r d) ((s.withRooms m).updateRoom p r d) := by
  refine ownerOnly_over s m p r (Out.rel_ite (err_over s m p r _) ?_)
  refine Out.rel_ite (err_over s m p r _) (Out.rel_ite (err_over s m p r _) ⟨?_, rfl⟩)
  rw [show (s.withRooms m).dto = s.dto from rfl, broadcast_withRooms, lobby_withRooms]

theorem requestGameState_over : Follows m (s.requestGameState p r) ((s.withRooms m).requestGameState p r) :=
  Out.rel_ite (Out.rel_unwrap (fun _ => ⟨send_withRooms s m _ _, rfl⟩)) ⟨rfl, rfl⟩

theorem startGame_over (d : Value) : Follows m (s.startGame env p r d) ((s.withRooms m).startGame env p r d) := by
  refine ownerOnly_over s m p r (Out.rel_ite (err_over s m p r _) ?_)
  rw [relay_withRooms]
  obtain ⟨t, out⟩ := s.relay p (gameStarted d)
  cases out with
  | none => exact ⟨rfl, rfl⟩
  | some msg =>
    refine ⟨?_, rfl⟩
    dsimp only
    rw [show (t.withRooms m).record _ = (t.record _).withRooms m from rfl, broadcastFrame_withRooms, lobby_withRooms]
    rfl

theorem setRoomMeta_over (d : Value) : Follows m (s.setRoomMeta p r d) ((s.withRooms m).setRoomMeta p r d) := by
  refine ownerOnly_over s m p r (Out.rel_ite (err_over s m p r _) ?_)
  rw [relay_withRooms]
  obtain ⟨t, out⟩ := s.relay p (onSetRoomMeta d)
  cases out with
  | none => exact ⟨rfl, rfl⟩
  | some msg => exact ⟨broadcastFrame_withRooms t m _ msg none none, rfl⟩

/-- **A method of a room does the same over another map.** -/
theorem roomMessage_over (method : String) (d : Value) :
    Follows m (s.roomMessage env p r method d) ((s.withRooms m).roomMessage env p r method d) := by
  unfold roomMessage
  refine Out.rel_ite (session_over env s m p r method d) (Out.rel_ite (notifyPlayers_over env s m p r d) ?_)
  refine Out.rel_ite (updateRoom_over s m p r d) (Out.rel_ite ⟨relayTo_withRooms s m p r _ _ _, rfl⟩ ?_)
  refine Out.rel_ite ⟨relayTo_withRooms s m p r _ _ _, rfl⟩ (Out.rel_ite ⟨relayTo_withRooms s m p r _ _ _, rfl⟩ ?_)
  refine Out.rel_ite (requestGameState_over s m p r) (Out.rel_ite (startGame_over env s m p r d) ?_)
  refine Out.rel_ite (ownerOnly_over s m p r ⟨relayTo_withRooms s m p r _ _ _, rfl⟩) ?_
  exact Out.rel_ite (setRoomMeta_over s m p r d) ⟨rfl, rfl⟩

/-- An uploaded chunk is taken alike over another map. -/
theorem upload_over (b : Bytes) : Follows m (s.upload env p r b) ((s.withRooms m).upload env p r b) := by
  refine Out.rel_ite ⟨rfl, rfl⟩ ?_
  cases r.upload with
  | none => exact ⟨rfl, rfl⟩
  | some u =>
    refine Out.rel_unwrap (fun id => Out.rel_ite (errorReply_over s m p _ _ _) ⟨?_, rfl⟩)
    exact reply_withRooms (s.record _) m p _ _

/-- An uploaded chunk leaves the other rooms alone. -/
theorem upload_rooms (b : Bytes) : (s.upload env p r b).All (fun sr => sr.1.rooms.get = s.rooms.get) := by
  refine Out.all_ite (fun _ => rfl) (fun _ => ?_)
  cases r.upload with
  | none => exact rfl
  | some u =>
    refine Out.all_unwrap (fun id _ => Out.all_ite (fun _ => ?_) (fun _ => ?_))
    · exact congrArg (fun c : Core => c.rooms.get) (reply_toCore s p _ _)
    · show ((s.record [.uploaded r.id p (b.drop 21)]).reply p _ _).rooms.get = s.rooms.get
      rw [reply_toCore]
      rfl

variable {s p r} in
theorem RoomDone.rooms {d : Value} {sr : Server × Room} (h : RoomDone s p d r sr) : sr.1.rooms.get = s.rooms.get := by
  obtain ⟨es, jobs, -, links, queue, -, -, hw⟩ := h
  exact congrArg World.rooms hw

omit [Extern] in
/-- The room goes back into the maps, wherever the others are. -/
theorem rel_putBack (id : String) {s t : Server} {o o' : Out (Server × Room)} (h : Alike s t)
    (ho : Follows t.rooms o o') (hr : o.All (fun sr => sr.1.rooms.get = s.rooms.get)) :
    Out.Rel Alike (mapOut (putBack id) o) (mapOut (putBack id) o') := by
  have hput : ∀ a b, a.1.rooms.get = s.rooms.get → Over t.rooms a b → Alike (putBack id a) (putBack id b) := by
    rintro ⟨a, r⟩ ⟨b, r'⟩ ha ⟨hb, hr'⟩
    cases (hb : b = a.withRooms t.rooms)
    cases (hr' : r' = r)
    have hrooms : a.rooms.entries.Perm t.rooms.entries := IndexMap.perm_of_get (ha.trans (IndexMap.get_of_perm h.entries))
    exact ⟨IndexMap.insert_perm hrooms id r, rfl⟩
  cases o <;> cases o' <;> first | exact ho.elim | skip
  · exact hput _ _ hr ho
  · exact hput _ _ hr ho
  · exact ho

end Methods

end Server
end Relay
