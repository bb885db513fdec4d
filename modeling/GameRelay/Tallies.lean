import GameRelay.Steps
/-!
# Tallies — what leaves the counters alone

The server counts the delayed frames of each connection and the pushes under way.  `Counts`: no connection's counters
change, none opens again, and a push that is counted is queued.  Every method is such a step, but for the frames that the
delay queue takes and gives back.
-/
namespace Relay

namespace Server

/-- The pushes under way are counted as they are queued, up to the limit. -/
def Raises (s t : Server) : Prop :=
  ∃ more, t.legacyPushes = s.legacyPushes ++ more ∧ t.pushesInFlight = s.pushesInFlight + more.length ∧
    (more = [] ∨ t.pushesInFlight ≤ 32)

theorem Raises.refl (s : Server) : s.Raises s := ⟨[], (List.append_nil _).symm, rfl, .inl rfl⟩

theorem Raises.trans {s t u : Server} (h : s.Raises t) (h' : t.Raises u) : s.Raises u := by
  obtain ⟨l, hl, hn, hle⟩ := h
  obtain ⟨l', hl', hn', hle'⟩ := h'
  refine ⟨l ++ l', by rw [hl', hl, List.append_assoc], by rw [hn', hn, List.length_append]; omega, ?_⟩
  rcases hle' with rfl | hle'
  · rw [List.append_nil]
    rw [List.length_nil, Nat.add_zero] at hn'
    exact hle.imp id (fun hle => hn' ▸ hle)
  · exact .inr hle'

structure Counts (s t : Server) : Prop where
  config : t.config = s.config
  connections : ∀ {cid c'}, t.connections.get cid = some c' → ∃ c, s.connections.get cid = some c ∧
    c'.delayed = c.delayed ∧ c'.pending = c.pending ∧ (c'.closing = false → c.closing = false)
  delayed : t.delayed.Sublist s.delayed
  pushes : s.Raises t

namespace Counts

variable {s t u : Server}

theorem refl (s : Server) : s.Counts s :=
  ⟨rfl, fun h => ⟨_, h, rfl, rfl, fun h => h⟩, .refl _, .refl s⟩

theorem trans (h : s.Counts t) (h' : t.Counts u) : s.Counts u := by
  refine ⟨h'.config.trans h.config, fun hu => ?_, h'.delayed.trans h.delayed, h.pushes.trans h'.pushes⟩
  obtain ⟨c₁, hc₁, hd₁, hp₁, ho₁⟩ := h'.connections hu
  obtain ⟨c, hc, hd, hp, ho⟩ := h.connections hc₁
  exact ⟨c, hc, hd₁.trans hd, hp₁.trans hp, fun hx => ho (ho₁ hx)⟩

theorem foldl {α : Type} {f : Server → α → Server} (hf : ∀ (s : Server) a, s.Counts (f s a)) :
    ∀ (l : List α) (s : Server), s.Counts (l.foldl f s)
  | [], s => .refl s
  | a :: l, s => (hf s a).trans (foldl hf l (f s a))

/-- Neither connections nor queues change. -/
theorem same (hg : t.config = s.config) (hn : t.connections = s.connections) (hl : t.legacyPushes = s.legacyPushes)
    (hi : t.pushesInFlight = s.pushesInFlight) (hd : t.delayed = s.delayed) : s.Counts t :=
  ⟨hg, fun h => ⟨_, hn ▸ h, rfl, rfl, fun h => h⟩, hd ▸ .refl _, [], hl.trans (List.append_nil _).symm, hi, .inl rfl⟩

theorem setPlayer (s : Server) (id : String) (p : Player) : s.Counts (s.setPlayer id p) := .same rfl rfl rfl rfl rfl

theorem setConnection {cid : Nat} {c c' : Connection} (hc : s.connections.get cid = some c) (hd : c'.delayed = c.delayed)
    (hp : c'.pending = c.pending) (ho : c'.closing = false → c.closing = false) : s.Counts (s.setConnection cid c') := by
  refine ⟨rfl, fun {x d} hx => ?_, .refl _, .refl s⟩
  rw [Server.setConnection, IndexMap.get_insert] at hx
  split at hx
  · rename_i he
    cases hx
    exact ⟨c, he ▸ hc, hd, hp, ho⟩
  · exact ⟨d, hx, rfl, rfl, fun h => h⟩

end Counts

variable [Extern]

section Sending

variable (s : Server)

theorem counts_raw (cid : Nat) {msg : Message} : s.Counts (s.raw cid msg) := by
  unfold raw
  split
  · exact .refl s
  rename_i c hc
  dsimp only
  have hoffered : s.Counts { s with offered := s.offered ++ [(cid, msg)] } := .same rfl rfl rfl rfl rfl
  split
  · exact hoffered
  rename_i hopen
  have ho : c.closing = false := Bool.eq_false_iff.2 hopen
  split
  · exact hoffered.trans (.setConnection hc rfl rfl (fun _ => ho))
  · split
    all_goals exact hoffered.trans (.setConnection hc rfl rfl (fun _ => ho))

theorem counts_sendC (cid : Nat) {v : Value} : s.Counts (s.sendC cid v) := by
  unfold sendC
  split
  · exact counts_raw s cid
  · exact .refl s

theorem counts_send (p : String) {v : Value} : s.Counts (s.send p v) := by
  unfold send
  split
  · exact counts_sendC s _
  · exact .refl s

theorem counts_error (cid : Nat) (code : String) : s.Counts (s.error cid code) := counts_sendC s cid

theorem counts_err (p code : String) : s.Counts (s.err p code) := counts_send s p

theorem counts_close (cid code : Nat) (reason : String) : s.Counts (s.close cid code reason) := counts_raw s cid

theorem counts_reply (p : String) (request data : Value) : s.Counts (s.reply p request data) := counts_send s p

theorem counts_errorReply (p : String) (req : Value) (code : String) : s.Counts (s.errorReply p req code) :=
  counts_reply s p req _

theorem counts_bytes (p : String) (b : Bytes) : s.Counts (s.bytes p b) := by
  unfold bytes
  split
  · exact counts_raw s _
  · exact .refl s

theorem counts_broadcastFrame (r : Room) {msg : Message} (except : Option String) (targets : Option Value) :
    s.Counts (s.broadcastFrame r msg except targets) := by
  refine Counts.foldl (fun s id => ?_) _ s
  split
  · split
    · exact counts_raw s _
    · exact .refl s
  · exact .refl s

theorem counts_broadcast (r : Room) {v : Value} (except : Option String) (targets : Option Value) :
    s.Counts (s.broadcast r v except targets) := by
  unfold broadcast
  split
  · exact counts_broadcastFrame s r except targets
  · exact .refl s

theorem counts_lobby {v : Value} : s.Counts (s.lobby v) := by
  unfold lobby
  split
  · refine Counts.foldl (fun s p => ?_) _ s
    split
    · exact counts_raw s _
    · exact .refl s
  · exact .refl s

theorem counts_relay (p : String) {v : Value} : s.Counts (s.relay p v).1 := by
  unfold relay
  split
  · exact .refl s
  · exact counts_err s p _

theorem counts_relayTo (p : String) (r : Room) {v : Value} (except : Option String) (targets : Option Value) :
    s.Counts (s.relayTo p r v except targets) := by
  have hrel := counts_relay s p (v := v)
  unfold relayTo
  split
  · rename_i t msg hr
    rw [hr] at hrel
    exact hrel.trans (counts_broadcastFrame t r except targets)
  · rename_i t hr
    rw [hr] at hrel
    exact hrel

theorem counts_relayBytes (r : Room) (p : String) (addressed : String → Bool) (b : Bytes) :
    s.Counts (s.relayBytes r p addressed b) := by
  refine Counts.foldl (fun s id => ?_) _ s
  split
  · exact counts_bytes s id b
  · exact .refl s

theorem counts_offerSeats (r : Room) : s.Counts (s.offerSeats r) := by
  unfold offerSeats
  split
  · refine Counts.foldl (fun s id => ?_) _ s
    split
    · exact counts_send s id
    · exact .refl s
  · exact .refl s

theorem counts_authenticationFailed (cid : Nat) : s.Counts (s.authenticationFailed cid) :=
  (counts_sendC s cid).trans (counts_close _ cid _ _)

end Sending

/-! Rooms. -/

omit [Extern] in
theorem counts_expire (s : Server) (now : Nat) : s.Counts (s.expire now) := by
  exact Counts.foldl (f := removeAccount) (fun s id => .same rfl rfl rfl rfl rfl) _ s

theorem counts_keep (env : Env) (s : Server) (r : Room) : s.Counts (s.keep env r) := by
  unfold keep
  split
  · split
    · dsimp only
      split
      · refine Counts.trans ?_ (Counts.foldl (fun s id => counts_lobby s) _ _)
        exact .same rfl rfl rfl rfl rfl
      · exact .same rfl rfl rfl rfl rfl
    · exact .same rfl rfl rfl rfl rfl
  · exact .same rfl rfl rfl rfl rfl

theorem counts_seatIn (env : Env) (s : Server) {p : String} (id : String) {player : Player} (loaded : Option Room)
    (r : Room) : s.Counts (s.seatIn env p id player loaded r) := by
  unfold seatIn
  dsimp only
  have htables : s.Counts ((s.record (entryEvents loaded r p)).setRoom id (joined r p)) := .same rfl rfl rfl rfl rfl
  refine Counts.trans (Counts.trans (htables.trans ?_) (counts_broadcast _ _ _ _))
    (counts_send _ p)
  exact .same rfl rfl rfl rfl rfl

theorem counts_enter (env : Env) (s : Server) (p id : String) (password : Value) :
    (s.enter env p id password).All s.Counts := by
  refine enter_all (.refl s) (fun t code ht => ht.trans (counts_err t p code)) (fun _ => .same rfl rfl rfl rfl rfl)
    (fun _ ht => ht.trans (.same rfl rfl rfl rfl rfl)) (fun t player loaded r _ _ ht => ?_)
  exact ht.trans (counts_seatIn env t id loaded r)

omit [Extern] in
theorem counts_releaseMembers (s : Server) (ids : List String) : s.Counts (s.releaseMembers ids) :=
  Counts.foldl (f := fun s id => { s with players := s.players.modify id releasePlayer })
    (fun _ _ => .same rfl rfl rfl rfl rfl) ids s

theorem counts_leave (env : Env) (s : Server) (p : String) (disconnected : Bool) :
    (s.leave env p disconnected).All s.Counts := by
  unfold leave
  refine Out.all_unwrap (fun player hp => ?_)
  dsimp only
  generalize hs₁ : (if disconnected then s.setPlayer p (releasePlayer player)
    else (s.setPlayer p (releasePlayer player)).dropReservations p) = s₁
  have h₁ : s.Counts s₁ := by
    have hrelease : s.Counts (s.setPlayer p (releasePlayer player)) := .same rfl rfl rfl rfl rfl
    rw [← hs₁]
    split
    · exact hrelease
    · exact hrelease.trans (.same rfl rfl rfl rfl rfl)
  split
  · exact h₁
  rename_i id _
  split
  · exact h₁
  rename_i r _
  have h₂ : s.Counts (s₁.removeRoom id) := h₁.trans (.same rfl rfl rfl rfl rfl)
  refine Out.all_ite (fun _ => ?_) (fun _ => Out.all_unwrap (fun first _ => ?_))
  all_goals
    generalize hs₃ : Server.broadcast (s₁.removeRoom id) (departed r p disconnected) _ none none = s₃
    have h₃ : s.Counts s₃ := by
      rw [← hs₃]
      exact h₂.trans (counts_broadcast _ _ none none)
    generalize hs₄ : (if ownerLost (departed r p disconnected) p then
      s₃.releaseMembers (departed r p disconnected).active.items else s₃) = s₄
    have h₄ : s.Counts s₄ := by
      rw [← hs₄]
      split
      · exact h₃.trans (counts_releaseMembers s₃ _)
      · exact h₃
  · exact Out.all_ite (fun _ => h₄.trans (counts_keep env s₄ _)) (fun _ => h₄.trans (counts_lobby s₄))
  · generalize (if ownerLost (departed r p disconnected) p then
      { departed r p disconnected with active := IndexSet.empty } else departed r p disconnected) = r₁
    refine h₄.trans (.trans ?_ ((counts_offerSeats _ _).trans (.same rfl rfl rfl rfl rfl)))
    split
    · exact Counts.trans (.same (t := s₄.record _) rfl rfl rfl rfl rfl) (counts_broadcast _ _ none none)
    · exact .refl s₄

theorem counts_disconnect (env : Env) (s : Server) (cid : Nat) : (s.disconnect env cid).All s.Counts := by
  unfold disconnect
  split
  · exact .refl s
  rename_i c _
  dsimp only
  generalize ht : ({ s with delayed := s.delayed.filter (fun d => decide (d.cid ≠ cid)),
                            connections := s.connections.shiftRemove cid } : Server) = t
  have h : s.Counts t := by
    rw [← ht]
    refine ⟨rfl, fun {x c'} hx => ⟨c', ?_, rfl, rfl, fun h => h⟩, List.filter_sublist, [], (List.append_nil _).symm, rfl, .inl rfl⟩
    change (s.connections.shiftRemove cid).get x = some c' at hx
    rw [IndexMap.get_shiftRemove] at hx
    split at hx
    · cases hx
    · exact hx
  split
  · exact h
  split
  · exact h
  rename_i pid _ _ p hp
  split
  · generalize hu : t.setPlayer pid { p with connection := none, offline := some env.now } = u
    have hset : s.Counts u := by
      rw [← hu]
      exact h.trans (.same rfl rfl rfl rfl rfl)
    have hl := counts_leave env u pid true
    generalize leave env u pid true = o at hl
    cases o with
    | ok v => exact hset.trans hl
    | err v => exact hset.trans hl
    | halt _ => trivial
  · exact h

/-! The methods of a room. -/

section Methods

variable (env : Env) (s : Server) (p : String) (r : Room)

/-- A room method's server is reached steadily. -/
abbrev CountsRoom (s : Server) (sr : Server × Room) : Prop := s.Counts sr.1

theorem counts_ownerOnly {k : Out (Server × Room)} (h : k.All s.CountsRoom) : (s.ownerOnly p r k).All s.CountsRoom := by
  unfold ownerOnly
  split
  · exact counts_err s p _
  · exact h

theorem counts_session (m : String) (d : Value) : (s.session env p r m d).All s.CountsRoom := by
  unfold session
  refine Out.all_ite (fun _ => counts_errorReply s p _ _) (fun _ => ?_)
  refine Out.all_ite (fun _ => counts_reply s p _ _) (fun _ => ?_)
  refine Out.all_ite (fun _ => ?_) (fun _ => ?_)
  · unfold getSessionChunk
    refine Out.all_unwrap (fun off _ => Out.all_ite (fun _ => counts_errorReply s p _ _) (fun _ => ?_))
    exact Out.all_unwrap (fun id _ => counts_bytes s p _)
  refine Out.all_ite (fun _ => counts_errorReply s p _ _) (fun _ => ?_)
  refine Out.all_ite (fun _ => ?_) (fun _ => ?_)
  · unfold beginSession
    refine Out.all_ite (fun _ => counts_errorReply s p _ _) (fun _ => Out.all_unwrap (fun size _ => ?_))
    refine Out.all_ite (fun _ => counts_errorReply s p _ _) (fun _ => Out.all_unwrap (fun id _ => ?_))
    exact Counts.trans (.same (t := s.record _) rfl rfl rfl rfl rfl) (counts_reply _ p _ _)
  · unfold commitSession
    dsimp only
    split
    · exact counts_errorReply s p _ _
    refine Out.all_unwrap (fun a _ => Out.all_unwrap (fun outsider _ => ?_))
    refine Out.all_ite (fun _ => counts_errorReply s p _ _) (fun _ => ?_)
    split
    · rename_i st _
      exact Counts.trans (.same (t := { s with store := st }) rfl rfl rfl rfl rfl) (counts_errorReply _ p _ _)
    · rename_i st _
      refine Counts.trans (Counts.trans ?_ (counts_reply _ p _ _)) (counts_broadcast _ _ _ _)
      exact .same rfl rfl rfl rfl rfl

omit [Extern] in
theorem counts_pushDevices (notice : Value) (room event id : String) (online : Bool) :
    ∀ (ds : List (String × Value)) (s : Server), (pushDevices notice room event id online ds s).All s.Counts
  | [], s => .refl s
  | (device, d) :: ds, s => by
    unfold pushDevices
    split
    · exact counts_pushDevices notice room event id online ds s
    · rename_i hfree
      have hroom : s.pushesInFlight + 1 ≤ 32 := by
        rw [Bool.or_eq_true, not_or, decide_eq_true_eq] at hfree
        omega
      refine Out.all_unwrap (fun token _ => ?_)
      dsimp only
      generalize ht : ({ s with legacyPushes := s.legacyPushes ++ [_], pushesInFlight := s.pushesInFlight + 1 } : Server) = t
      have hpush : s.Counts t := by
        rw [← ht]
        exact ⟨rfl, fun h => ⟨_, h, rfl, rfl, fun h => h⟩, .refl _, [_], rfl, rfl, .inr hroom⟩
      exact (counts_pushDevices notice room event id online ds t).mono (fun u h => hpush.trans h)

omit [Extern] in
theorem counts_pushTargets (notice : Value) (room event p : String) :
    ∀ (vs : List Value) (s : Server), (pushTargets notice room event p vs s).All s.Counts
  | [], s => .refl s
  | v :: vs, s => by
    unfold pushTargets
    refine Out.all_unwrap (fun id _ => ?_)
    split
    · exact counts_pushTargets notice room event p vs s
    · split
      · exact counts_pushTargets notice room event p vs s
      · refine Out.all_andThen (counts_pushDevices _ _ _ _ _ _ s) (fun t ht => ?_) (fun t ht => ht)
        exact (counts_pushTargets notice room event p vs t).mono (fun u hu => Counts.trans ht hu)

theorem counts_notifyPlayers (d : Value) : (s.notifyPlayers env p r d).All s.CountsRoom := by
  unfold notifyPlayers
  refine Out.all_ite (fun _ => counts_err s p _) (fun _ => counts_ownerOnly s p r ?_)
  refine Out.all_unwrap (fun outsider _ => Out.all_ite (fun _ => counts_err s p _) (fun _ => ?_))
  refine Out.all_unwrap (fun targets _ => Out.all_unwrap (fun event _ => ?_))
  refine Out.all_ite (fun _ => .refl s) (fun _ => Out.all_ite (fun _ => counts_err s p _) (fun _ => ?_))
  exact all_mapOut (counts_pushTargets d r.id event p targets s) (fun t ht => ht)

theorem counts_updateRoom (d : Value) : (s.updateRoom p r d).All s.CountsRoom := by
  unfold updateRoom
  refine counts_ownerOnly s p r (Out.all_ite (fun _ => counts_err s p _) (fun _ => ?_))
  refine Out.all_ite (fun _ => counts_err s p _) (fun _ => Out.all_ite (fun _ => counts_err s p _) (fun _ => ?_))
  exact (counts_broadcast s _ none none).trans (counts_lobby _)

theorem counts_startGame (d : Value) : (s.startGame env p r d).All s.CountsRoom := by
  unfold startGame
  refine counts_ownerOnly s p r (Out.all_ite (fun _ => counts_err s p _) (fun _ => ?_))
  have hrel := counts_relay s p (v := gameStarted d)
  split
  · rename_i t hr
    rw [hr] at hrel
    exact hrel
  · rename_i t out hr
    rw [hr] at hrel
    refine Counts.trans (Counts.trans ?_ (counts_broadcastFrame _ _ none none))
      (counts_lobby _)
    exact Counts.trans hrel (.same rfl rfl rfl rfl rfl)

theorem counts_setRoomMeta (d : Value) : (s.setRoomMeta p r d).All s.CountsRoom := by
  unfold setRoomMeta
  refine counts_ownerOnly s p r (Out.all_ite (fun _ => counts_err s p _) (fun _ => ?_))
  have hrel := counts_relay s p (v := onSetRoomMeta d)
  split
  · rename_i t out hr
    rw [hr] at hrel
    exact hrel.trans (counts_broadcastFrame t _ none none)
  · rename_i t hr
    rw [hr] at hrel
    exact hrel

theorem counts_roomMessage (m : String) (d : Value) : (s.roomMessage env p r m d).All s.CountsRoom := by
  unfold roomMessage
  refine Out.all_ite (fun _ => counts_session env s p r m d) (fun _ => ?_)
  refine Out.all_ite (fun _ => counts_notifyPlayers env s p r d) (fun _ => ?_)
  refine Out.all_ite (fun _ => counts_updateRoom s p r d) (fun _ => ?_)
  refine Out.all_ite (fun _ => counts_relayTo s p r none none) (fun _ => ?_)
  refine Out.all_ite (fun _ => counts_relayTo s p r _ none) (fun _ => ?_)
  refine Out.all_ite (fun _ => counts_relayTo s p r none _) (fun _ => ?_)
  refine Out.all_ite (fun _ => ?_) (fun _ => ?_)
  · unfold requestGameState
    split
    · exact Out.all_unwrap (fun a _ => counts_send s _)
    · exact .refl s
  refine Out.all_ite (fun _ => counts_startGame env s p r d) (fun _ => ?_)
  refine Out.all_ite (fun _ => counts_ownerOnly s p r ?_) (fun _ => ?_)
  · exact counts_relayTo s p r _ _
  exact Out.all_ite (fun _ => counts_setRoomMeta s p r d) (fun _ => .refl s)

theorem counts_inRoom (m : String) (d : Value) : (s.inRoom env p m d).All s.Counts := by
  unfold inRoom
  refine Out.all_unwrap (fun player _ => ?_)
  split
  · exact counts_err s p _
  rename_i id _
  split
  · exact counts_err s p _
  rename_i r _
  refine all_mapOut (counts_roomMessage env (s.takeRoom id) p r m d) (fun sr h => ?_)
  exact Counts.trans (Counts.trans (.same (t := s.takeRoom id) rfl rfl rfl rfl rfl) h) (.same rfl rfl rfl rfl rfl)

/-! The methods of an account. -/

theorem counts_getSavedRooms : ∀ (ids : List Value) (s : Server), (getSavedRooms env p ids s).All s.Counts
  | [], s => .refl s
  | id :: ids, s => by
    unfold getSavedRooms
    refine Out.all_unwrap (fun key _ => ?_)
    split
    · exact .refl s
    · exact (counts_getSavedRooms ids _).mono (fun t ht => (counts_send s p).trans ht)

theorem counts_changeName (d : Value) : (s.changeName env p d).All s.Counts := by
  unfold changeName
  refine Out.all_unwrap (fun player hp => Out.all_unwrap (fun name _ => ?_))
  dsimp only
  have hset : s.Counts (s.setPlayer p { player with name := name }) := .same rfl rfl rfl rfl rfl
  generalize ({ player with name := name } : Player) = pl at *
  have hsave : ∀ st, s.Counts { s.setPlayer p pl with store := st } := fun st => hset.trans (.same rfl rfl rfl rfl rfl)
  split
  · exact hsave _
  · split
    · exact hsave _
    · exact (hsave _).trans (counts_broadcast _ _ none none)

theorem counts_setPushDevice (d : Value) : (s.setPushDevice env p d).All s.Counts := by
  unfold setPushDevice
  refine Out.all_ite (fun _ => counts_err s p _) (fun _ => ?_)
  refine Out.all_unwrap (fun device _ => Out.all_unwrap (fun player hp => ?_))
  dsimp only
  generalize ht : (if (d.idx "token").isNull then s.setPlayer p { player with devices := player.devices.shiftRemove device }
      else
        { s with players :=
          (s.players.mapVals (fun _ a => claimToken p device (d.idx "token") a)).modify p (fun a => registerDevice a device d)
            }) = t
  have hset : s.Counts t := by
    rw [← ht]
    split
    all_goals exact .same rfl rfl rfl rfl rfl
  have hsave : ∀ st, s.Counts { t with store := st } := fun st => hset.trans (.same rfl rfl rfl rfl rfl)
  refine Out.all_unwrap (fun player' _ => ?_)
  split
  · exact hsave _
  · exact (hsave _).trans (counts_send _ p)

theorem counts_createRoom (d : Value) : (s.createRoom env p d).All s.Counts := by
  unfold createRoom
  refine Out.all_unwrap (fun player _ => Out.all_ite (fun _ => counts_err s p _) (fun _ => ?_))
  refine Out.all_ite (fun _ => counts_err s p _) (fun _ => ?_)
  refine Out.all_unwrap (fun name _ => Out.all_unwrap (fun max _ => ?_))
  unfold drawId
  refine Out.all_ite (fun _ => trivial) (fun _ => ?_)
  generalize ht : ({ s with draws := s.draws + 1, drawn := (env.uuid s.draws).text :: s.drawn } : Server) = t
  have hdraw : s.Counts t := by rw [← ht]; exact .same rfl rfl rfl rfl rfl
  refine Out.all_ite (fun _ => hdraw.trans (counts_err t p _)) (fun _ => ?_)
  refine Out.all_andThen (P := s.Counts) ?_ (fun u hu => ?_) (fun _ h => h)
  · refine (counts_enter env _ p _ (d.idx "password")).mono (fun u hu => ?_)
    exact (hdraw.trans (.same (t := (t.record _).setRoom _ _) rfl rfl rfl rfl rfl)).trans hu
  · exact Out.all_unwrap (fun r' _ => hu.trans (counts_lobby u))

/-- **Everything an account asks for leaves the counters alone.** -/
theorem counts_handle (cid : Nat) (v : Value) : (s.handle env cid p v).All s.Counts := by
  unfold handle
  refine Out.all_unwrap (fun m _ => ?_)
  dsimp only
  refine Out.all_ite (fun _ => ?_) (fun _ => ?_)
  · unfold openUdp
    refine Out.all_ite (fun _ => counts_err s p _) (fun _ => Out.all_unwrap (fun player _ => ?_))
    refine Out.all_ite (fun _ => counts_err s p _) (fun _ => Out.all_unwrap (fun c hc => ?_))
    have hdraw : s.Counts { s with draws := s.draws + 1 } := .same rfl rfl rfl rfl rfl
    exact Counts.trans (hdraw.trans (.setConnection hc (by rfl) (by rfl) (by exact id))) (counts_sendC _ cid)
  refine Out.all_ite (fun _ => ?_) (fun _ => ?_)
  · unfold closeUdp
    exact Out.all_unwrap (fun c hc => Counts.trans (.setConnection hc (by rfl) (by rfl) (by exact id)) (counts_sendC _ cid))
  refine Out.all_ite (fun _ => ?_) (fun _ => ?_)
  · unfold pong
    refine Out.all_unwrap (fun c hc => ?_)
    split
    · exact .refl s
    refine Out.all_ite (fun _ => Out.all_unwrap (fun player _ => ?_)) (fun _ => .refl s)
    exact (Counts.setConnection hc (by rfl) (by rfl) (by exact id)).trans (.setPlayer _ p _)
  refine Out.all_ite (fun _ => ?_) (fun _ => ?_)
  · unfold getRooms
    dsimp only
    split
    · exact counts_err s p _
    · exact counts_send s p
  refine Out.all_ite (fun _ => Out.all_unwrap (fun ids _ => counts_getSavedRooms env p ids s)) (fun _ => ?_)
  refine Out.all_ite (fun _ => ?_) (fun _ => ?_)
  · unfold getPlayers
    refine Out.all_unwrap (fun x _ => ?_)
    split
    · exact .refl s
    · exact counts_send s p
  refine Out.all_ite (fun _ => counts_changeName env s p _) (fun _ => ?_)
  refine Out.all_ite (fun _ => Out.all_unwrap (fun id _ => counts_enter env s p id _)) (fun _ => ?_)
  refine Out.all_ite (fun _ => counts_leave env s p false) (fun _ => ?_)
  refine Out.all_ite (fun _ => counts_setPushDevice env s p _) (fun _ => ?_)
  refine Out.all_ite (fun _ => ?_) (fun _ => ?_)
  · unfold getModerationTicket
    refine Out.all_unwrap (fun target _ => Out.all_unwrap (fun room _ => ?_))
    dsimp only
    exact Out.all_ite (fun _ => counts_errorReply s p _ _) (fun _ => counts_reply s p _ _)
  exact Out.all_ite (fun _ => counts_createRoom env s p _) (fun _ => counts_inRoom env s p m _)

end Methods

theorem counts_binary (env : Env) (s : Server) (p : String) (b : Bytes) : (s.binary env p b).All s.Counts := by
  unfold binary
  refine Out.all_unwrap (fun player hp => ?_)
  split
  · exact .refl s
  rename_i id hid
  split
  · exact .refl s
  rename_i r hr
  have htake : s.Counts (s.takeRoom id) := .same rfl rfl rfl rfl rfl
  refine Out.all_ite (fun _ => ?_) (fun _ => Out.all_ite (fun _ => counts_relayBytes s r p _ _) (fun _ => ?_))
  · refine all_mapOut (P := s.CountsRoom) ?_ (fun sr h => Counts.trans h (.same rfl rfl rfl rfl rfl))
    unfold upload
    refine Out.all_ite (fun _ => htake) (fun _ => ?_)
    split
    · exact htake
    refine Out.all_unwrap (fun bid _ => Out.all_ite (fun _ => ?_) (fun _ => ?_))
    · exact htake.trans (counts_errorReply _ p _ _)
    · exact (htake.trans (.same (t := (s.takeRoom id).record _) rfl rfl rfl rfl rfl)).trans (counts_reply _ p _ _)
  · refine Out.all_ite (fun _ => counts_err s p _) (fun _ => ?_)
    exact Out.all_unwrap (fun sender _ => counts_relayBytes s r p _ _)

/-! Authentication. -/

theorem counts_bind (env : Env) (s : Server) (cid : Nat) (id : String) (created : Bool) :
    (s.bind env cid id created).All s.Counts := by
  unfold bind
  refine Out.all_unwrap (fun p _ => ?_)
  dsimp only
  generalize ({ p with connection := some cid, offline := none, rtt := none } : Player) = pl
  refine Out.all_unwrap (fun c hc => ?_)
  have hset : ∀ st, s.Counts { (s.setPlayer id pl).setConnection cid { c with player := some id } with store := st } :=
    fun st => (Counts.setPlayer s id pl).trans (Counts.trans
      (t := (s.setPlayer id pl).setConnection cid { c with player := some id })
      (.setConnection hc (by rfl) (by rfl) (by exact fun h => h)) (.same rfl rfl rfl rfl rfl))
  split
  · exact hset _
  · rename_i st _
    generalize hs₁ : ({ (s.setPlayer id pl).setConnection cid { c with player := some id } with store := st } : Server) = s₁
    have h₁ : s.Counts s₁ := by rw [← hs₁]; exact hset st
    have hgreet : ∀ v w, s.Counts (Server.sendC (if created then s₁.sendC cid v else s₁) cid w) := by
      intro v w
      split
      · exact (h₁.trans (counts_sendC s₁ cid)).trans (counts_sendC _ cid)
      · exact h₁.trans (counts_sendC s₁ cid)
    split
    · exact (hgreet _ _).trans (counts_sendC _ cid)
    · exact hgreet _ _

theorem counts_replaceSession (s : Server) (p : Player) : s.Counts (s.replaceSession p) := by
  unfold replaceSession
  split
  · refine (counts_close s _ 1008 _).trans ⟨rfl, fun h => ⟨_, h, rfl, rfl, fun h => h⟩, List.filter_sublist, [], ?_, rfl, .inl rfl⟩
    exact (List.append_nil _).symm
  · exact .refl s

/-- An account comes back, from memory or from its file. -/
theorem counts_reconnect (env : Env) (s : Server) (cid : Nat) (p : Player) (d : Value) :
    (s.reconnect env cid p d).All s.Counts := by
  unfold reconnect
  dsimp only
  generalize ht : (if s.players.contains p.id then s else s.setPlayer p.id p) = t
  have hstart : s.Counts t := by
    rw [← ht]
    split
    · exact .refl s
    · exact .same rfl rfl rfl rfl rfl
  have hbind : ∀ (u : Server) (q : Player), s.Counts u →
      (bind env ((u.replaceSession q).setPlayer p.id (renamed q d)) cid p.id false).All s.Counts := by
    intro u q hu
    refine (counts_bind env _ cid p.id false).mono (fun v hv => ?_)
    exact (hu.trans (counts_replaceSession u q)).trans ((Counts.setPlayer _ p.id _).trans hv)
  split
  · refine Out.all_andThen ((counts_leave env t p.id true).mono (fun u hu => hstart.trans hu)) (fun u hu => ?_) (fun _ h => h)
    exact Out.all_unwrap (fun q _ => hbind u q hu)
  · exact hbind t p hstart

theorem counts_auth (env : Env) (s : Server) (cid : Nat) (d : Value) : (s.auth env cid d).All s.Counts := by
  have hexp : s.Counts (s.expire env.now) := counts_expire s env.now
  have hfail := hexp.trans (counts_authenticationFailed (s.expire env.now) cid)
  unfold auth
  dsimp only
  refine Out.all_ite (fun _ => Out.all_ite (fun _ => ?_) (fun _ => ?_)) (fun _ => ?_)
  · exact (hexp.trans (counts_error _ cid _)).trans (counts_close _ cid _ _)
  · unfold drawId
    refine Out.all_ite (fun _ => trivial) (fun _ => ?_)
    generalize ht : ({ s.expire env.now with draws := (s.expire env.now).draws + 1, drawn :=
      (env.uuid (s.expire env.now).draws).text :: (s.expire env.now).drawn } : Server) = t
    have hdraw : s.Counts t := by rw [← ht]; exact hexp.trans (.same rfl rfl rfl rfl rfl)
    refine (counts_bind env _ cid _ true).mono (fun u hu => ?_)
    exact (hdraw.trans (.setPlayer _ _ _)).trans hu
  · split
    · exact hexp
    · exact hfail
    · rename_i p _
      refine Out.all_ite (fun _ => hfail) (fun _ => ?_)
      exact (counts_reconnect env _ cid p d).mono (fun t ht => hexp.trans ht)

/-! Frames. -/

theorem counts_dispatch (env : Env) (s : Server) (cid : Nat) (frame : Frame) (parsed : Option Value) :
    (s.dispatch env cid frame parsed).All s.Counts := by
  unfold dispatch
  split
  · exact .refl s
  rename_i p _
  cases frame with
  | text t =>
    refine Out.all_unwrap (fun v _ => ?_)
    exact reportErr_all (counts_handle env s p cid v) (fun _ h => h) (fun t h => h.trans (counts_error t cid _))
  | binary b =>
    exact reportErr_all (counts_binary env s p b) (fun _ h => h) (fun t h => h.trans (counts_error t cid _))
  | ping _ => exact .refl s
  | pong _ => exact .refl s

/-! Maintenance. -/

theorem counts_keepEmpty (env : Env) : ∀ (ids : List String) (s : Server), (keepEmpty env ids s).All s.Counts
  | [], s => .refl s
  | id :: ids, s => by
    unfold keepEmpty
    refine Out.all_unwrap (fun r _ => (counts_keepEmpty env ids _).mono (fun t ht => ?_))
    exact Counts.trans (Counts.trans (.same (t := s.removeRoom id) rfl rfl rfl rfl rfl) (counts_keep env _ r)) ht

theorem counts_sweepRooms (env : Env) (s : Server) : (s.sweepRooms env).All s.Counts := by
  unfold sweepRooms
  dsimp only
  have htimed : s.Counts { s with rooms := s.rooms.mapVals (fun _ r => timeoutUpload env.now r) } := .same rfl rfl rfl rfl rfl
  exact (counts_keepEmpty env _ _).mono (fun t ht => htimed.trans ht)

theorem counts_sweepConnection (env : Env) (s : Server) {cid : Nat} {c : Connection} (hc : s.connections.get cid = some c) :
    s.Counts (s.sweepConnection env cid c).1 := by
  unfold sweepConnection
  dsimp only
  split
  · split
    · exact counts_close s cid _ _
    · exact .refl s
  split
  · exact counts_close s cid _ _
  split
  · split
    · exact Counts.trans (.setConnection hc (by rfl) (by rfl) (by exact id)) (counts_sendC _ cid)
    · exact .setConnection hc rfl rfl id
  · exact .refl s

theorem counts_sweepConnections (env : Env) : ∀ (cids : List Nat) (s : Server) (heartbeat : Bool),
    (sweepConnections env cids s heartbeat).All (fun x => s.Counts x.1)
  | [], s, _ => .refl s
  | cid :: cids, s, heartbeat => by
    unfold sweepConnections
    refine Out.all_unwrap (fun c hc => ?_)
    exact (counts_sweepConnections env cids _ _).mono (fun x hx => (counts_sweepConnection env s hc).trans hx)

end Server
end Relay
