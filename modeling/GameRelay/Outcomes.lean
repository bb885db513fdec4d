import GameRelay.Reloads
/-!
# Outcomes — what a room command comes to

A room command is either refused before anything changes, with an error told to its sender alone, or carried out, and
then nobody is told an error: `RoomOutcome` of each method, `Outcome` of the message.  A reply too large to be sent
would be the exception: `beginSession` and `commitSession` answer after they changed the room.  So their outcome is that
of a room whose sender can be told (`Confirms`).  The creator of a room always can: the room passed the size check of its
listing (`entered_fits`).
-/
namespace Relay

open Function (update)

namespace Out

variable {α β : Type}

/-- The method returns `Ok`, if it returns, with a value that satisfies `P`. -/
def Yields (P : α → Prop) : Out α → Prop
  | .ok a => P a
  | .err _ => False
  | .halt _ => True

theorem Yields.mono {P Q : α → Prop} (h : ∀ a, P a → Q a) : ∀ {o : Out α}, o.Yields P → o.Yields Q
  | .ok a, ha => h a ha
  | .halt _, _ => trivial

theorem Yields.of_state {P : α → Prop} {a : α} : ∀ {o : Out α}, o.Yields P → o.state = some a → P a
  | .ok _, h, he => Option.some.inj he ▸ h
  | .err _, h, _ => h.elim
  | .halt _, _, he => nomatch he

theorem yields_unwrap {P : α → Prop} {x : Option β} {k : β → Out α} (h : ∀ b, x = some b → (k b).Yields P) :
    (unwrap x k).Yields P := by
  cases x with
  | none => trivial
  | some b => exact h b rfl

theorem yields_ite {P : α → Prop} {c : Prop} [Decidable c] {o o' : Out α} (h : c → o.Yields P) (h' : ¬ c → o'.Yields P) :
    (if c then o else o').Yields P := by
  split
  · exact h (by assumption)
  · exact h' (by assumption)

theorem yields_andThen {P Q : α → Prop} {o : Out α} {k : α → Out α} (ho : o.Yields P) (hk : ∀ a, P a → (k a).Yields Q) :
    (andThen o k).Yields Q := by
  cases o with
  | ok a => exact hk a ho
  | err a => exact ho.elim
  | halt _ => trivial

end Out

theorem yields_mapOut {α β : Type} {P : α → Prop} {Q : β → Prop} {f : α → β} {o : Out α} (ho : o.Yields P)
    (h : ∀ a, P a → Q (f a)) : (Server.mapOut f o).Yields Q := by
  cases o with
  | ok a => exact h a ho
  | err a => exact ho.elim
  | halt _ => trivial

/-- The error a frame tells: that of an error message, or of a session reply. -/
def Message.errorCode : Message → Value
  | .text v =>
    if v.idx "method" = .str "error" then (v.idx "data").idx "code"
    else if v.idx "method" = .str "sessionReply" then (v.idx "data").idx "error"
    else .null
  | _ => .null

/-- The frame tells no error. -/
def Message.Clean (m : Message) : Prop := m.errorCode = .null

theorem clean_text {m : String} {fields : List (String × Value)} (h : m ≠ "error") (h' : m ≠ "sessionReply") :
    (Message.text (.obj (("method", .str m) :: fields))).Clean := by
  have hm : (Value.obj (("method", .str m) :: fields)).idx "method" = .str m := rfl
  unfold Message.Clean Message.errorCode
  dsimp only
  rw [hm, if_neg (fun he => h (Value.str.inj he)), if_neg (fun he => h' (Value.str.inj he))]

theorem clean_binary (b : Bytes) : (Message.binary b).Clean := rfl

variable [Extern]

omit [Extern] in
/-- The number's text is as long as it has digits. -/
theorem repr_size_le {n k : Nat} (hk : 0 < k) (h : n < 10 ^ k) : (Nat.repr n).utf8ByteSize ≤ k := by
  have hone : ∀ cs : List Char, (∀ c ∈ cs, c.utf8Size = 1) → (String.ofList cs).utf8ByteSize = cs.length := by
    intro cs
    induction cs with
    | nil => intro _; rfl
    | cons c cs ih =>
      intro hc
      have hcons : String.ofList (c :: cs) = String.singleton c ++ String.ofList cs := by
        rw [← String.toList_inj]; simp
      rw [hcons, String.utf8ByteSize_append, String.utf8ByteSize_singleton, hc c List.mem_cons_self,
        ih (fun x hx => hc x (List.mem_cons_of_mem _ hx)), List.length_cons, Nat.add_comm]
  rw [Nat.repr_eq_ofList_toDigits, hone]
  · exact (Nat.length_toDigits_le_iff (by decide) hk).2 h
  · intro c hc
    have hd := Nat.isDigit_of_mem_toDigits (by decide) (by decide) hc
    simp only [Char.isDigit, Bool.and_eq_true, decide_eq_true_eq] at hd
    unfold Char.utf8Size
    rw [if_pos]
    exact UInt32.le_trans hd.2 (by decide)

theorem numberSize_le (hryu : ∀ n, (Extern.ryuJs n).utf8ByteSize ≤ 25) (n : Nat) : numberSize n ≤ 25 := by
  show (if n ≤ maxSafe then Nat.repr n else Extern.ryuJs (.pos n)).utf8ByteSize ≤ 25
  split
  · rename_i hle
    exact Nat.le_trans (repr_size_le (k := 16) (by decide) (Nat.lt_of_le_of_lt hle (by decide))) (by decide)
  · exact hryu _

theorem numberSize_maxSafe : numberSize maxSafe = 16 := by
  unfold numberSize
  show (if maxSafe ≤ maxSafe then Nat.repr maxSafe else Extern.ryuJs (.pos maxSafe)).utf8ByteSize = 16
  rw [if_pos (Nat.le_refl _)]
  decide

theorem itemsSize_replicate {v : Value} {n : Nat} (h : 1 ≤ n) :
    Json.textSize Protocol.numText v ≤ Json.itemsSize Protocol.numText (List.replicate n v) := by
  obtain ⟨m, rfl⟩ : ∃ m, n = m + 1 := ⟨n - 1, by omega⟩
  rw [List.replicate_succ]
  cases m with
  | zero => exact Nat.le_refl _
  | succ m =>
    rw [List.replicate_succ]
    show _ ≤ Json.textSize Protocol.numText v + 1 + _
    omega

namespace Server

/-- Nothing changed but what was sent, and that went to the account's connection alone. -/
structure Told (s : Server) (p : String) (t : Server) : Prop where
  rooms : t.rooms = s.rooms
  players : t.players = s.players
  roomFiles : t.store.rooms = s.store.rooms
  accounts : t.store.accounts = s.store.accounts
  jobs : t.store.jobs = s.store.jobs
  notifications : t.store.notifications = s.store.notifications
  legacyPushes : t.legacyPushes = s.legacyPushes
  pushesInFlight : t.pushesInFlight = s.pushesInFlight
  frames : ∃ new, t.offered = s.offered ++ new ∧ ∀ x ∈ new, s.connectionOf p = some x.1

omit [Extern] in
theorem Told.refl (s : Server) (p : String) : s.Told p s :=
  ⟨rfl, rfl, rfl, rfl, rfl, rfl, rfl, rfl, [], (List.append_nil _).symm, fun _ h => nomatch h⟩

theorem sendC_frames (s : Server) (cid : Nat) (v : Value) :
    ∃ new, (s.sendC cid v).offered = s.offered ++ new ∧ ∀ x ∈ new, x.1 = cid := by
  have none : ∃ new, s.offered = s.offered ++ new ∧ ∀ x ∈ new, x.1 = cid :=
    ⟨[], (List.append_nil _).symm, fun _ h => nomatch h⟩
  unfold sendC
  split
  · rw [raw_offered]
    split
    · exact ⟨[_], rfl, fun x hx => by rw [List.mem_singleton.1 hx]⟩
    · exact none
  · exact none

theorem send_frames (s : Server) (p : String) (v : Value) :
    ∃ new, (s.send p v).offered = s.offered ++ new ∧ ∀ x ∈ new, s.connectionOf p = some x.1 := by
  unfold send
  split
  · rename_i cid hc
    obtain ⟨new, hnew, hall⟩ := sendC_frames s cid v
    exact ⟨new, hnew, fun x hx => by rw [hall x hx]; exact hc⟩
  · exact ⟨[], (List.append_nil _).symm, fun _ h => nomatch h⟩

theorem told_send (s : Server) (p : String) (v : Value) : s.Told p (s.send p v) := by
  have hcore := send_toCore s p v
  exact ⟨congrArg Core.rooms hcore, congrArg Core.players hcore, congrArg (fun c : Core => c.store.rooms) hcore,
    congrArg (fun c : Core => c.store.accounts) hcore, congrArg (fun c : Core => c.store.jobs) hcore,
    congrArg (fun c : Core => c.store.notifications) hcore, congrArg Core.legacyPushes hcore,
    congrArg Core.pushesInFlight hcore, send_frames s p v⟩

theorem told_err (s : Server) (p code : String) : s.Told p (s.err p code) := told_send s p _

theorem told_errorReply (s : Server) (p : String) (req : Value) (code : String) : s.Told p (s.errorReply p req code) :=
  told_send s p _

/-- What fits is sent as it is. -/
theorem send_clean {s : Server} {v : Value} (p : String) (hv : (Message.text v).Clean)
    (hfit : s.config.fits (Protocol.size v) = true) : Emits false Message.Clean s (s.send p v) := by
  unfold send
  split
  · rename_i cid hc
    unfold sendC encoded
    rw [if_pos hfit]
    exact .raw s cid hv
  · exact .refl s

/-- A reply that fits is sent as it is. -/
theorem reply_clean {s : Server} (p : String) {k : String} {req : Value} (n : Nat) (hk : k ≠ "error")
    (hk' : k ≠ "requestId") (hfit : s.config.fits (Protocol.size (.obj [("method", .str "sessionReply"),
      ("data", (Value.obj [(k, .ofNat n)]).set "requestId" req)])) = true) :
    Emits false Message.Clean s (s.reply p req (.obj [(k, .ofNat n)])) := by
  refine send_clean p ?_ hfit
  show ((Value.obj [(k, .ofNat n)]).set "requestId" req).idx "error" = .null
  simp [Value.set, Value.setFields, Value.idx, Value.get, hk, hk']

omit [Extern] in
/-- A commit that failed left the store as it was. -/
theorem commit_refused {io : Nat → Bool} {st st' : Store} {r : Room} {a b : Value} (h : st.commit io r a b = (st', false)) :
    st'.rooms = st.rooms ∧ st'.jobs = st.jobs ∧ st'.notifications = st.notifications ∧ st'.accounts = st.accounts := by
  unfold Store.commit Store.setJobs at h
  repeat' split at h
  all_goals cases h
  all_goals exact ⟨rfl, rfl, rfl, rfl⟩

/-- A room method refused, or went on telling nobody an error. -/
def RoomOutcome (s : Server) (p : String) (r : Room) (sr : Server × Room) : Prop :=
  (sr.2 = r ∧ s.Told p sr.1) ∨ Emits false Message.Clean s sr.1

/-- What a room tells of a change made to it fits. -/
structure Confirms (c : Config) (m : String) (r : Room) : Prop where
  begin : m = "beginSession" → c.fits 96 = true
  commit : m = "commitSession" → c.fits (97 + numberSize (r.revision + 1)) = true

theorem size_offset {req : String} (h : isUuid req = true) :
    Protocol.size (.obj [("method", .str "sessionReply"),
      ("data", (Value.obj [("offset", .ofNat 0)]).set "requestId" (.str req))]) = 96 := by
  have hset : (Value.obj [("offset", .ofNat 0)]).set "requestId" (.str req) =
      .obj [("offset", .ofNat 0), ("requestId", .str req)] := by
    simp [Value.set, Value.setFields]
  have hnum : (Protocol.numText (.pos 0)).utf8ByteSize = 1 := by
    show (if 0 ≤ maxSafe then Nat.repr 0 else Extern.ryuJs (.pos 0)).utf8ByteSize = 1
    rw [if_pos (Nat.zero_le _)]
    decide
  have hq := quoteSize_uuid h
  rw [hset, Protocol.size_eq]
  simp only [Value.ofNat, Json.textSize, Json.fieldsSize, hq, hnum, show Json.quoteSize "method" = 8 from by decide,
    show Json.quoteSize "sessionReply" = 14 from by decide, show Json.quoteSize "data" = 6 from by decide,
    show Json.quoteSize "offset" = 8 from by decide, show Json.quoteSize "requestId" = 11 from by decide]

theorem size_revision (n : Nat) {req : String} (h : isUuid req = true) :
    Protocol.size (.obj [("method", .str "sessionReply"),
      ("data", (Value.obj [("revision", .ofNat n)]).set "requestId" (.str req))]) = 97 + numberSize n := by
  have hset : (Value.obj [("revision", .ofNat n)]).set "requestId" (.str req) =
      .obj [("revision", .ofNat n), ("requestId", .str req)] := by
    simp [Value.set, Value.setFields]
  have hq := quoteSize_uuid h
  rw [hset, Protocol.size_eq]
  simp only [Value.ofNat, Json.textSize, Json.fieldsSize, hq, numberSize, show Json.quoteSize "method" = 8 from by decide,
    show Json.quoteSize "sessionReply" = 14 from by decide, show Json.quoteSize "data" = 6 from by decide,
    show Json.quoteSize "revision" = 10 from by decide, show Json.quoteSize "requestId" = 11 from by decide]
  omega

/-- A room that waits for its game, as it is listed with these players and this delay of its owner. -/
def listing (r : Room) (players rtt : Value) : Value :=
  .obj (("roomId", .str r.id) :: ("ownerId", .str r.owner) :: ("name", .str r.name) :: ("players", players) ::
    ("maxPlayers", .ofNat r.max) :: ("hasPassword", .bool !r.password.isNull) :: ("gameData", r.game) ::
    ("gameStarted", .bool false) :: ("joinClosed", .bool r.closed) :: ("rtt", rtt) :: ("metaData", r.metadata) :: r.dtoExtra)

/-- How long a listing is depends on players and delay alone. -/
theorem size_listing (r : Room) (players rtt players' rtt' : Value) :
    Json.textSize Protocol.numText (listing r players rtt) + Json.textSize Protocol.numText players' +
        Json.textSize Protocol.numText rtt' =
      Json.textSize Protocol.numText (listing r players' rtt') + Json.textSize Protocol.numText players +
        Json.textSize Protocol.numText rtt := by
  unfold listing
  generalize Value.bool (!r.password.isNull) = b
  generalize Value.bool r.closed = c
  simp only [Json.textSize, Json.fieldsSize]
  omega

omit [Extern] in
theorem joined_listing {r : Room} {p : String} (rtt : Option Nat) (hact : r.active = IndexSet.empty)
    (hper : r.persistent = false) (hst : r.started = false) :
    (joined r p).dto rtt = listing r (.arr [.str p]) (.ofOption rtt) := by
  have hhosts : hosts r = false := by unfold hosts; rw [hper]; rfl
  have hitems : (r.active.insert p).items = [p] := by rw [hact]; rfl
  have hjoin : joined r p = { r with active := r.active.insert p, reservations := r.reservations.shiftRemove p } := by
    unfold joined
    rw [hhosts]
    rfl
  rw [hjoin]
  unfold Room.dto Room.dtoFields
  dsimp only
  rw [hitems, hst]
  rfl

omit [Extern] in
theorem dto_listing (s : Server) (r : Room) (players : Value) :
    (((s.dto r).set "players" players).set "rtt" (.ofNat maxSafe)).set "gameStarted" (.bool false) =
      listing r players (.ofNat maxSafe) := by
  unfold dto Room.dto Room.dtoFields listing
  simp [Value.set, Value.setFields]

/-- **What the creator of a room is told fits**, since the room's listing does. -/
theorem entered_fits (hryu : ∀ n, (Extern.ryuJs n).utf8ByteSize ≤ 25) {s t : Server} {r : Room} {p : String}
    {rtt : Option Nat} (hown : r.owner = p) (hact : r.active = IndexSet.empty) (hper : r.persistent = false)
    (hst : r.started = false) (hmax : 1 ≤ r.max) (hfit : s.roomFits r = true) (ht : t.config = s.config) :
    t.config.fits (Protocol.size (.obj [("method", .str "onRoomEnter"), ("data", (joined r p).dto rtt)])) = true := by
  have hrtt : Json.textSize Protocol.numText (.ofOption rtt) ≤ 25 := by
    cases rtt with
    | none => show 4 ≤ 25; decide
    | some n => exact numberSize_le hryu n
  have hsafe : Json.textSize Protocol.numText (.ofNat maxSafe) = 16 := numberSize_maxSafe
  have hitems := itemsSize_replicate (v := .str p) hmax
  have hlist := size_listing r (.arr [.str p]) (.ofOption rtt) (.arr (List.replicate r.max (.str p))) (.ofNat maxSafe)
  have hle : Protocol.size (.obj [("method", .str "onRoomEnter"), ("data", (joined r p).dto rtt)]) ≤
      Protocol.size (onGetRooms [listing r (.arr (List.replicate r.max (.str p))) (.ofNat maxSafe)] (.str r.id)) := by
    rw [joined_listing rtt hact hper hst, Protocol.size_eq, Protocol.size_eq]
    simp only [onGetRooms, Json.textSize, Json.fieldsSize, Json.itemsSize,
      show Json.quoteSize "method" = 8 from by decide, show Json.quoteSize "onRoomEnter" = 13 from by decide,
      show Json.quoteSize "onGetRooms" = 12 from by decide, show Json.quoteSize "data" = 6 from by decide,
      show Json.quoteSize "nextCursor" = 12 from by decide] at hlist hitems ⊢
    omega
  have hreplicate : Value.strs (List.replicate r.max p) = .arr (List.replicate r.max (.str p)) := by
    unfold Value.strs
    rw [List.map_replicate]
  unfold roomFits at hfit
  dsimp only at hfit
  split at hfit
  · cases hfit
  rw [hown, dto_listing, hreplicate] at hfit
  unfold encoded at hfit
  split at hfit
  · rename_i hfits
    rw [ht]
    unfold Config.fits at hfits ⊢
    rw [Bool.and_eq_true, decide_eq_true_iff, decide_eq_true_iff] at hfits ⊢
    omega
  · cases hfit

/-- A configuration some room fits has room for every confirmation. -/
theorem confirms_fit {s : Server} {r : Room} (hfit : s.roomFits r = true) {n : Nat} (hn : n ≤ 122) :
    s.config.fits n = true := by
  unfold roomFits at hfit
  dsimp only at hfit
  split at hfit
  · cases hfit
  rw [dto_listing] at hfit
  unfold encoded at hfit
  split at hfit
  · rename_i hfits
    have hle : n ≤ Protocol.size (onGetRooms [listing r (Value.strs (List.replicate r.max r.owner)) (.ofNat maxSafe)]
        (.str r.id)) := by
      rw [Protocol.size_eq]
      unfold listing
      generalize Value.bool (!r.password.isNull) = b
      generalize Value.bool r.closed = c
      simp only [onGetRooms, Json.textSize, Json.fieldsSize, Json.itemsSize,
        show Json.quoteSize "method" = 8 from by decide, show Json.quoteSize "onGetRooms" = 12 from by decide,
        show Json.quoteSize "nextCursor" = 12 from by decide, show Json.quoteSize "maxPlayers" = 12 from by decide,
        show Json.quoteSize "hasPassword" = 13 from by decide, show Json.quoteSize "gameStarted" = 13 from by decide,
        show Json.quoteSize "joinClosed" = 12 from by decide, show Json.quoteSize "players" = 9 from by decide,
        show Json.quoteSize "gameData" = 10 from by decide, show Json.quoteSize "ownerId" = 9 from by decide]
      omega
    unfold Config.fits at hfits ⊢
    rw [Bool.and_eq_true, decide_eq_true_iff, decide_eq_true_iff] at hfits ⊢
    omega
  · cases hfit

section Methods

variable (env : Env) (s : Server) (p : String) (r : Room) (d : Value)

theorem refused_err (code : String) : RoomOutcome s p r (s.err p code, r) := .inl ⟨rfl, told_err s p code⟩

theorem refused_reply (req : Value) (code : String) : RoomOutcome s p r (s.errorReply p req code, r) :=
  .inl ⟨rfl, told_errorReply s p req code⟩

theorem ownerOnly_outcome {k : Out (Server × Room)} (h : k.Yields (RoomOutcome s p r)) :
    (s.ownerOnly p r k).Yields (RoomOutcome s p r) := by
  unfold ownerOnly
  exact Out.yields_ite (fun _ => refused_err s p r _) (fun _ => h)

theorem pushDevices_yields (notice : Value) (room event id : String) (online : Bool) :
    ∀ (ds : List (String × Value)) (s : Server), (pushDevices notice room event id online ds s).Yields
      (Emits false Message.Clean s)
  | [], s => .refl s
  | (device, x) :: ds, s => by
    unfold pushDevices
    refine Out.yields_ite (fun _ => pushDevices_yields notice room event id online ds s) (fun _ => ?_)
    refine Out.yields_unwrap (fun token _ => ?_)
    dsimp only
    refine (pushDevices_yields notice room event id online ds _).mono (fun u hu => Emits.trans ?_ hu)
    exact .same rfl rfl rfl rfl rfl

theorem pushTargets_yields (notice : Value) (room event : String) :
    ∀ (vs : List Value) (s : Server), (pushTargets notice room event p vs s).Yields (Emits false Message.Clean s)
  | [], s => .refl s
  | v :: vs, s => by
    unfold pushTargets
    refine Out.yields_unwrap (fun id _ => Out.yields_ite (fun _ => pushTargets_yields notice room event vs s) (fun _ => ?_))
    split
    · exact pushTargets_yields notice room event vs s
    · refine Out.yields_andThen (pushDevices_yields notice room event id _ _ s) (fun t ht => ?_)
      exact (pushTargets_yields notice room event vs t).mono (fun u hu => ht.trans hu)

theorem notifyPlayers_outcome : (s.notifyPlayers env p r d).Yields (RoomOutcome s p r) := by
  unfold notifyPlayers
  refine Out.yields_ite (fun _ => refused_err s p r _) (fun _ => ownerOnly_outcome s p r ?_)
  refine Out.yields_unwrap (fun outsider _ => Out.yields_ite (fun _ => refused_err s p r _) (fun _ => ?_))
  refine Out.yields_unwrap (fun targets _ => Out.yields_unwrap (fun event _ => ?_))
  refine Out.yields_ite (fun _ => .inr (.refl s)) (fun _ => Out.yields_ite (fun _ => refused_err s p r _) (fun _ => ?_))
  exact yields_mapOut (pushTargets_yields p d r.id event targets s) (fun t ht => Or.inr ht)

theorem updateRoom_outcome : (s.updateRoom p r d).Yields (RoomOutcome s p r) := by
  unfold updateRoom
  refine ownerOnly_outcome s p r (Out.yields_ite (fun _ => refused_err s p r _) (fun _ => ?_))
  refine Out.yields_ite (fun _ => refused_err s p r _) (fun _ => Out.yields_ite (fun _ => refused_err s p r _) (fun _ => ?_))
  exact .inr ((emits_broadcast s _ none none (clean_text (by decide) (by decide))).trans
    (emits_lobby _ (clean_text (by decide) (by decide))))

/-- A message is relayed as it is, or its sender is told that it does not fit. -/
theorem relay_outcome (v : Value) :
    (s.relay p v = (s.err p "payload_too_large", none)) ∨ s.relay p v = (s, some (.text v)) := by
  unfold relay
  split
  · rename_i m he
    rw [encoded_some he]
    exact .inr rfl
  · exact .inl rfl

theorem relayTo_outcome {v : Value} (except : Option String) (targets : Option Value) (hv : (Message.text v).Clean) :
    RoomOutcome s p r (s.relayTo p r v except targets, r) := by
  unfold relayTo
  rcases relay_outcome s p v with h | h
  · rw [h]
    exact refused_err s p r _
  · rw [h]
    exact .inr (emits_broadcastFrame s r except targets hv)

theorem startGame_outcome : (s.startGame env p r d).Yields (RoomOutcome s p r) := by
  unfold startGame
  refine ownerOnly_outcome s p r (Out.yields_ite (fun _ => refused_err s p r _) (fun _ => ?_))
  have hclean : (Message.text (gameStarted d)).Clean := clean_text (by decide) (by decide)
  rcases relay_outcome s p _ with h | h
  · rw [h]
    exact refused_err s p r _
  · rw [h]
    refine .inr (Emits.trans ((record_emits s _).trans (emits_broadcastFrame _ _ none none hclean)) (emits_lobby _ ?_))
    exact clean_text (by decide) (by decide)

theorem setRoomMeta_outcome : (s.setRoomMeta p r d).Yields (RoomOutcome s p r) := by
  unfold setRoomMeta
  refine ownerOnly_outcome s p r (Out.yields_ite (fun _ => refused_err s p r _) (fun _ => ?_))
  have hclean : (Message.text (onSetRoomMeta d)).Clean := clean_text (by decide) (by decide)
  rcases relay_outcome s p _ with h | h
  · rw [h]
    exact refused_err s p r _
  · rw [h]
    exact .inr (emits_broadcastFrame s _ none none hclean)

theorem beginSession_outcome {req : String} (hreq : d.idx "requestId" = .str req) (hu : isUuid req = true)
    (hfit : s.config.fits 96 = true) : (s.beginSession env p r d).Yields (RoomOutcome s p r) := by
  unfold beginSession
  refine Out.yields_ite (fun _ => refused_reply s p r _ _) (fun _ => Out.yields_unwrap (fun size _ => ?_))
  refine Out.yields_ite (fun _ => refused_reply s p r _ _) (fun _ => Out.yields_unwrap (fun id _ => .inr ?_))
  rw [hreq]
  refine (record_emits s _).trans (reply_clean p 0 (by decide) (by decide) ?_)
  exact (size_offset hu).symm ▸ hfit

theorem commitSession_outcome {req : String} (hreq : d.idx "requestId" = .str req) (hu : isUuid req = true)
    (hfit : s.config.fits (97 + numberSize (r.revision + 1)) = true) :
    (s.commitSession env p r d).Yields (RoomOutcome s p r) := by
  unfold commitSession
  dsimp only
  split
  · exact refused_reply s p r _ _
  refine Out.yields_unwrap (fun a _ => Out.yields_unwrap (fun outsider _ => ?_))
  refine Out.yields_ite (fun _ => refused_reply s p r _ _) (fun _ => ?_)
  split
  · rename_i st hst
    obtain ⟨hrooms, hjobs, hnotes, hacc⟩ := commit_refused hst
    have h := told_errorReply { s with store := st } p (d.idx "requestId") "storage_error"
    exact .inl ⟨rfl, h.rooms, h.players, h.roomFiles.trans hrooms, h.accounts.trans hacc, h.jobs.trans hjobs,
      h.notifications.trans hnotes, h.legacyPushes, h.pushesInFlight, h.frames⟩
  · rename_i up _ st _
    rw [hreq]
    have hrec := fun es => (store_emits (k := false) (P := Message.Clean) s st).trans (record_emits _ es)
    refine .inr (Emits.trans ((hrec _).trans (reply_clean p _ (by decide) (by decide) ?_)) (emits_broadcast _ _ _ _ ?_))
    · exact (size_revision (r.revision + 1) hu).symm ▸ hfit
    · exact clean_text (by decide) (by decide)

theorem session_outcome {m req : String} (hm : m ∈ ["getSessionChunk", "beginSession", "commitSession"])
    (hreq : d.idx "requestId" = .str req) (hu : isUuid req = true) (hfit : r.persistent = true → Confirms s.config m r) :
    (s.session env p r m d).Yields (RoomOutcome s p r) := by
  unfold session
  refine Out.yields_ite (fun _ => refused_reply s p r _ _) (fun hp => ?_)
  have hfit := hfit (by simpa using hp)
  refine Out.yields_ite (fun hg => ?_) (fun _ => ?_)
  · subst hg
    simp at hm
  refine Out.yields_ite (fun _ => ?_) (fun hc => Out.yields_ite (fun _ => refused_reply s p r _ _) (fun _ => ?_))
  · unfold getSessionChunk
    refine Out.yields_unwrap (fun off _ => Out.yields_ite (fun _ => refused_reply s p r _ _) (fun _ => ?_))
    exact Out.yields_unwrap (fun id _ => .inr (emits_bytes s p (clean_binary _)))
  refine Out.yields_ite (fun hb => beginSession_outcome env s p r d hreq hu (hfit.begin hb)) (fun hb => ?_)
  have hcommit : m = "commitSession" := by
    simp only [List.mem_cons, List.not_mem_nil, or_false] at hm
    exact (hm.resolve_left hc).resolve_left hb
  exact commitSession_outcome env s p r d hreq hu (hfit.commit hcommit)

/-- The room commands that answer at once, but for entering and leaving. -/
def inRoomCommands : List String := ["updateRoom", "startGame", "shareGameState", "setRoomMeta", "sendTo", "sendToRoom",
  "sendChatMsg", "notifyPlayers", "beginSession", "getSessionChunk", "commitSession"]

/-- **A room command is refused, or nobody is told an error.** -/
theorem roomMessage_outcome {m : String} (hm : m ∈ inRoomCommands)
    (hreq : m ∈ ["getSessionChunk", "beginSession", "commitSession"] →
      ∃ req, d.idx "requestId" = .str req ∧ isUuid req = true)
    (hfit : r.persistent = true → Confirms s.config m r) : (s.roomMessage env p r m d).Yields (RoomOutcome s p r) := by
  unfold roomMessage
  refine Out.yields_ite (fun hs => ?_) (fun _ => ?_)
  · have hs' : m ∈ ["getSessionChunk", "beginSession", "commitSession"] := by
      rcases List.mem_cons.1 hs with rfl | hs
      · exact absurd hm (by decide)
      · exact hs
    obtain ⟨req, hreq, hu⟩ := hreq hs'
    exact session_outcome env s p r d hs' hreq hu hfit
  refine Out.yields_ite (fun _ => notifyPlayers_outcome env s p r d) (fun _ => ?_)
  refine Out.yields_ite (fun _ => updateRoom_outcome s p r d) (fun _ => ?_)
  refine Out.yields_ite (fun _ => relayTo_outcome s p r none none (clean_text (by decide) (by decide))) (fun _ => ?_)
  refine Out.yields_ite (fun _ => relayTo_outcome s p r _ none (clean_text (by decide) (by decide))) (fun _ => ?_)
  refine Out.yields_ite (fun _ => relayTo_outcome s p r none _ (clean_text (by decide) (by decide))) (fun _ => ?_)
  refine Out.yields_ite (fun h => absurd hm (h ▸ by decide)) (fun _ => ?_)
  refine Out.yields_ite (fun _ => startGame_outcome env s p r d) (fun _ => ?_)
  refine Out.yields_ite (fun _ => ownerOnly_outcome s p r ?_) (fun _ => ?_)
  · exact relayTo_outcome s p r _ _ (clean_text (by decide) (by decide))
  exact Out.yields_ite (fun _ => setRoomMeta_outcome s p r d) (fun _ => .inr (.refl s))

end Methods

/-- Every room, account, job list and push is as it was, and nobody but this connection is told anything. -/
structure Intact (s : Server) (cid : Nat) (t : Server) : Prop where
  rooms : t.rooms.get = s.rooms.get
  players : t.players = s.players
  roomFiles : t.store.rooms = s.store.rooms
  accounts : t.store.accounts = s.store.accounts
  jobs : t.store.jobs = s.store.jobs
  notifications : t.store.notifications = s.store.notifications
  legacyPushes : t.legacyPushes = s.legacyPushes
  pushesInFlight : t.pushesInFlight = s.pushesInFlight
  frames : ∃ new, t.offered = s.offered ++ new ∧ ∀ x ∈ new, x.1 = cid

omit [Extern] in
theorem Told.intact {s t : Server} {p : String} {cid : Nat} (h : s.Told p t) (hc : s.connectionOf p = some cid) :
    s.Intact cid t := by
  obtain ⟨new, hnew, hall⟩ := h.frames
  refine ⟨congrArg IndexMap.get h.rooms, h.players, h.roomFiles, h.accounts, h.jobs, h.notifications, h.legacyPushes,
    h.pushesInFlight, new, hnew, fun x hx => ?_⟩
  have := hall x hx
  rw [hc] at this
  exact (Option.some.inj this).symm

/-- Refused with nothing changed, or nobody is told an error. -/
def Outcome (s : Server) (cid : Nat) (t : Server) : Prop := s.Intact cid t ∨ Emits false Message.Clean s t

/-- A new error frame answers the connection. -/
def Answered (t u : Server) (cid : Nat) (code : String) : Prop :=
  ∃ new x, u.offered = t.offered ++ new ∧ x ∈ new ∧ x.1 = cid ∧ x.2.errorCode = .str code

theorem Outcome.intact {t u : Server} {cid : Nat} {code : String} (h : t.Outcome cid u) (ha : t.Answered u cid code) :
    t.Intact cid u := by
  rcases h with h | h
  · exact h
  · obtain ⟨new, x, hnew, hx, -, hcode⟩ := ha
    obtain ⟨clean, hclean, hall⟩ := h.offered
    rw [List.append_cancel_left (hnew.symm.trans hclean)] at hx
    have hnull : x.2.errorCode = .null := hall x hx
    rw [hnull] at hcode
    cases hcode

theorem inRoom_outcome (env : Env) {s : Server} {cid : Nat} {p m : String} {d : Value} (hc : s.connectionOf p = some cid)
    (hm : m ∈ inRoomCommands)
    (hreq : m ∈ ["getSessionChunk", "beginSession", "commitSession"] →
      ∃ req, d.idx "requestId" = .str req ∧ isUuid req = true)
    (hfit : ∀ id r, s.world.Sits p id r → r.persistent = true → Confirms s.config m r) :
    (s.inRoom env p m d).Yields (s.Outcome cid) := by
  unfold inRoom
  refine Out.yields_unwrap (fun player hp => ?_)
  split
  · exact .inl ((told_err s p _).intact hc)
  rename_i id hid
  split
  · exact .inl ((told_err s p _).intact hc)
  rename_i r hr
  have hsits : s.world.Sits p id r := ⟨⟨player.seat, seats_eq hp, hid⟩, hr⟩
  refine yields_mapOut (roomMessage_outcome env (s.takeRoom id) p r d hm hreq (hfit id r hsits)) (fun sr h => ?_)
  rcases h with ⟨hr', ht⟩ | h
  · obtain ⟨t, r'⟩ := sr
    obtain rfl : r' = r := hr'
    have hi := ht.intact hc
    exact .inl ⟨putBack_rooms hr ht.rooms, hi.players, hi.roomFiles, hi.accounts, hi.jobs, hi.notifications,
      hi.legacyPushes, hi.pushesInFlight, hi.frames⟩
  · have htake : Emits false Message.Clean s (s.takeRoom id) := .same rfl rfl rfl rfl rfl
    exact .inr ((htake.trans h).trans (setRoom_emits _ id sr.2))

theorem createRoom_outcome (hryu : ∀ n, (Extern.ryuJs n).utf8ByteSize ≤ 25) (env : Env) {s : Server} {cid : Nat}
    {p : String} {d : Value} (hc : s.connectionOf p = some cid) (hmax : ∀ n, (d.idx "maxPlayers").asU64 = some n → 1 ≤ n) :
    (s.createRoom env p d).Yields (s.Outcome cid) := by
  have herr : ∀ code, s.Outcome cid (s.err p code) := fun code => .inl ((told_err s p code).intact hc)
  unfold createRoom
  refine Out.yields_unwrap (fun player hp => Out.yields_ite (fun _ => herr _) (fun hroom => ?_))
  refine Out.yields_ite (fun _ => herr _) (fun _ => Out.yields_unwrap (fun name _ => Out.yields_unwrap (fun max hmax' => ?_)))
  unfold drawId
  refine Out.yields_ite (fun _ => trivial) (fun _ => ?_)
  dsimp only
  generalize (env.uuid s.draws).text = id
  generalize hs₁ : ({ s with draws := s.draws + 1, drawn := id :: s.drawn } : Server) = s₁
  generalize hr : ({ Room.new id name p max (d.idx "password") (d.idx "gameData") env.now with
    binary := decide (d.idx "binaryRelay" = .bool true) } : Room) = r
  have hfresh : r.owner = p ∧ r.active = IndexSet.empty ∧ r.persistent = false ∧ r.started = false ∧ r.max = max ∧
      r.closed = false ∧ r.password = d.idx "password" := by
    rw [← hr]
    exact ⟨rfl, rfl, rfl, rfl, rfl, rfl, rfl⟩
  obtain ⟨hown, hact, hper, hst, hrmax, hclosed, hpw⟩ := hfresh
  refine Out.yields_ite (fun _ => ?_) (fun hfit => ?_)
  · have hc₁ : s₁.connectionOf p = some cid := by
      rw [← hs₁]
      exact hc
    have ht := (told_err s₁ p "payload_too_large").intact hc₁
    subst hs₁
    exact .inl ⟨ht.rooms, ht.players, ht.roomFiles, ht.accounts, ht.jobs, ht.notifications, ht.legacyPushes,
      ht.pushesInFlight, ht.frames⟩
  generalize hs₂ : (s₁.record [.created id p]).setRoom id r = s₂
  have hp₂ : s₂.players.get p = some player := by rw [← hs₂, ← hs₁]; exact hp
  have hr₂ : s₂.rooms.get id = some r := by rw [← hs₂]; exact IndexMap.get_insert_self _ _ _
  have hentry : entryError r p (d.idx "password") = none := by
    have hone := hmax max hmax'
    unfold entryError
    rw [hst, hclosed, hpw, hact, hrmax]
    simp [IndexSet.empty, IndexSet.size]
    omega
  rw [enter_found hp₂ (by simpa using hroom) hr₂ hentry]
  refine Out.yields_unwrap (fun r' _ => .inr ?_)
  have hseat : Emits false Message.Clean s₂ (s₂.seatIn env p id player none r) := by
    unfold seatIn
    dsimp only
    refine Emits.trans (Emits.trans (((record_emits s₂ _).trans (setRoom_emits _ id _)).trans
      (setPlayer_emits _ (fun h => by cases h))) (emits_broadcast _ _ _ _ (clean_text (by decide) (by decide))))
      (send_clean p (clean_text (by decide) (by decide)) ?_)
    refine entered_fits hryu (s := s₁) hown hact hper hst (hrmax ▸ hmax max hmax') (by simpa using hfit) ?_
    rw [congrArg Core.config (broadcast_toCore _ _ _ _ _), ← hs₂]
    rfl
  have hdraw : Emits false Message.Clean s s₁ := by
    rw [← hs₁]
    exact .same rfl rfl rfl rfl rfl
  have hstart : Emits false Message.Clean s s₂ := by
    rw [← hs₂]
    exact hdraw.trans ((record_emits s₁ _).trans (setRoom_emits _ id r))
  exact (hstart.trans hseat).trans (emits_lobby _ (clean_text (by decide) (by decide)))

/-- The commands about rooms, but for entering and leaving. -/
def roomCommands : List String := "createRoom" :: inRoomCommands

/-- **A room command is refused with nothing changed, or nobody is told an error.** -/
theorem handle_outcome (hryu : ∀ n, (Extern.ryuJs n).utf8ByteSize ≤ 25) (env : Env) {t : Server} {cid : Nat}
    {p txt m : String} {v : Value} (hv : t.Valid txt v m) (hp : t.Speaks cid p) (hm : m ∈ roomCommands)
    (hfit : ∀ id r, t.world.Sits p id r → r.persistent = true → Confirms t.config m r) :
    (t.handle env cid p v).Yields (t.Outcome cid) := by
  have other : ∀ {m' : String} {o : Out Server}, m' ∉ roomCommands → m = m' → o.Yields (t.Outcome cid) :=
    fun hno h => absurd (h ▸ hm) hno
  unfold handle
  rw [hv.method]
  show Out.Yields (t.Outcome cid) (if m = "openUdp" then _ else _)
  refine Out.yields_ite (other (by decide)) (fun _ => Out.yields_ite (other (by decide)) (fun _ => ?_))
  refine Out.yields_ite (other (by decide)) (fun _ => Out.yields_ite (other (by decide)) (fun _ => ?_))
  refine Out.yields_ite (other (by decide)) (fun _ => Out.yields_ite (other (by decide)) (fun _ => ?_))
  refine Out.yields_ite (other (by decide)) (fun _ => Out.yields_ite (other (by decide)) (fun _ => ?_))
  refine Out.yields_ite (other (by decide)) (fun _ => Out.yields_ite (other (by decide)) (fun _ => ?_))
  refine Out.yields_ite (other (by decide)) (fun _ => Out.yields_ite (fun hc => ?_) (fun hc => ?_))
  · refine createRoom_outcome hryu env hp.2 (fun n hn => Protocol.createRoom_max hv.valid ?_ hn)
    rw [← hc]
    exact hv.method
  · refine inRoom_outcome env hp.2 ((List.mem_cons.1 hm).resolve_left hc) (fun hs => ?_) hfit
    have hd := Protocol.validate_data hv.valid hv.method
    have hid : Protocol.uuid ((v.idx "data").idx "requestId") = true := by
      simp only [List.mem_cons, List.not_mem_nil, or_false] at hs
      rcases hs with rfl | rfl | rfl
      all_goals simp only [Protocol.validData, Bool.and_eq_true] at hd
      · exact hd.1.1.2
      · exact hd.1.1.1.1.2
      · exact hd.1.1.2
    obtain ⟨req, hreq, hu⟩ := Protocol.uuid_asStr hid
    exact ⟨req, Value.asStr_eq_some.1 hreq, hu⟩

/-- What the connection's account is told of a change to its saved room fits. -/
def Announces (t : Server) (cid : Nat) (m : String) : Prop :=
  ∀ p id r, t.Speaks cid p → t.world.Sits p id r → r.persistent = true → Confirms t.config m r

theorem dispatch_outcome (hryu : ∀ n, (Extern.ryuJs n).utf8ByteSize ≤ 25) (env : Env) {t : Server} {cid : Nat}
    {p txt m : String} {v : Value} {parsed : Option Value} (hv : t.Valid txt v m) (hp : t.Speaks cid p)
    (hm : m ∈ roomCommands) (hfit : t.Announces cid m) (hparsed : ∀ v', parsed = some v' → v' = v) :
    (t.dispatch env cid (.text txt) parsed).Yields (t.Outcome cid) := by
  have hor : parsed.or (Protocol.parse txt) = some v := by
    cases parsed with
    | none => exact hv.parses
    | some v' => rw [Option.some_or, hparsed v' rfl]
  have h := handle_outcome hryu env hv hp hm (fun id r => hfit p id r hp)
  unfold dispatch
  rw [hp.1]
  show Out.Yields (t.Outcome cid) (Out.unwrap (parsed.or (Protocol.parse txt)) _)
  rw [hor]
  show Out.Yields (t.Outcome cid) (reportErr cid (t.handle env cid p v))
  cases hu : t.handle env cid p v with
  | ok u => rw [hu] at h; exact h
  | err u => rw [hu] at h; exact h.elim
  | halt _ => trivial

theorem intact_error (s : Server) (cid : Nat) (code : String) : s.Intact cid (s.error cid code) := by
  have hcore := sendC_toCore s cid (errorData code)
  exact ⟨congrArg (fun c : Core => c.rooms.get) hcore, congrArg Core.players hcore,
    congrArg (fun c : Core => c.store.rooms) hcore, congrArg (fun c : Core => c.store.accounts) hcore,
    congrArg (fun c : Core => c.store.jobs) hcore, congrArg (fun c : Core => c.store.notifications) hcore,
    congrArg Core.legacyPushes hcore, congrArg Core.pushesInFlight hcore, sendC_frames s cid _⟩

/-- The same of a message received: it is refused, executed or queued. -/
theorem receive_outcome (hryu : ∀ n, (Extern.ryuJs n).utf8ByteSize ≤ 25) (env : Env) {s : Server} {cid : Nat}
    {txt m : String} {v : Value} (hparse : Protocol.parse txt = some v) (hname : v.idx "method" = .str m)
    (hm : m ∈ roomCommands) (hfit : s.Announces cid m) : (s.receive env cid (.text txt)).Yields (s.Outcome cid) := by
  unfold receive
  split
  · exact .inr (.refl s)
  rename_i k hk
  refine Out.yields_ite (fun _ => .inr (.refl s)) (fun hopen => ?_)
  simp only [Bool.or_eq_true, not_or, Bool.not_eq_true', Bool.not_eq_true, Bool.not_eq_false] at hopen
  dsimp only
  generalize ht : s.setConnection cid (countFrame k env.now) = t
  have hcount : Emits false Message.Clean s t := by
    rw [← ht]
    exact .setConnection hk (outbox_countFrame k env.now) rfl
  have hback : ∀ u, t.Outcome cid u → s.Outcome cid u := by
    rintro u (h | h)
    · subst ht
      exact .inl ⟨h.rooms, h.players, h.roomFiles, h.accounts, h.jobs, h.notifications, h.legacyPushes, h.pushesInFlight,
        h.frames⟩
    · exact .inr (hcount.trans h)
  have hclose : ∀ code reason, s.Outcome cid (t.close cid code reason) := fun _ _ => .inr (hcount.trans (.raw t cid rfl))
  have herr : ∀ code, s.Outcome cid (t.error cid code) := fun code => hback _ (.inl (intact_error t cid code))
  refine Out.yields_ite (fun _ => hclose _ _) (fun _ => Out.yields_ite (fun _ => hclose _ _) (fun _ => ?_))
  unfold receiveText
  rw [hparse]
  refine Out.yields_ite (fun _ => herr _) (fun hvalid => Out.yields_ite (fun _ => herr _) (fun _ => ?_))
  refine Out.yields_unwrap (fun m' hm' => ?_)
  obtain rfl : m' = m := by
    rw [hname] at hm'
    exact (Option.some.inj hm').symm
  have hv : t.Valid txt v m' := ⟨hparse, eq_true_of_ne_false hvalid, hm'⟩
  split
  · exact Out.yields_ite (fun h => absurd (h ▸ hm) (by decide)) (fun _ => herr _)
  rename_i p hp
  have hp : k.player = some p := hp
  refine Out.yields_ite (fun _ => herr _) (fun _ => ?_)
  have hconn : s.connectionOf p = some cid := by
    have := hopen.2
    unfold isCurrent at this
    rw [hp] at this
    exact of_decide_eq_true this
  have hs : s.Speaks cid p := ⟨by rw [hk]; exact hp, hconn⟩
  have hts : t.Speaks cid p := by
    rw [← ht]
    exact ⟨by rw [setConnection, IndexMap.get_insert_self]; exact hp, hconn⟩
  have htfit : t.Announces cid m' := by
    intro q id r hq hsits
    obtain rfl : q = p := Option.some.inj (hq.1.symm.trans hts.1)
    subst ht
    exact hfit q id r hs hsits
  unfold submit
  refine Out.yields_ite (fun _ => Out.yields_unwrap (fun c hc => ?_)) (fun _ => ?_)
  · refine Out.yields_ite (fun _ => hclose _ _) (fun _ => Out.yields_unwrap (fun player _ => .inr (hcount.trans ?_)))
    generalize hc' : ({ c with delayed := c.delayed + (Frame.text txt).len, pending := c.pending + 1 } : Connection) = c'
    have hset : Emits false Message.Clean t (t.setConnection cid c') :=
      .setConnection hc (by rw [← hc']; rfl) (by rw [← hc'])
    exact hset.trans (.core rfl rfl rfl (fun h => absurd h Bool.false_ne_true))
  · refine (dispatch_outcome hryu env hv hts hm htfit (fun v' h => ?_)).mono hback
    exact (Option.some.inj h).symm

end Server
end Relay
