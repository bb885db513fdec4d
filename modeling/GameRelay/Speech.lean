import GameRelay.Emits
import GameRelay.Steps
/-!
# Speech — every frame that names a sender names who sent it

The methods of an account send frames that name no sender but the account; authentication and maintenance send frames
that name none.
-/
namespace Relay

variable [Extern]

namespace Server

/-- A room method's server is reached by sending. -/
abbrev Spoken (routed : Bool) (p : String) (s : Server) (sr : Server × Room) : Prop :=
  Emits true (Message.Names routed p) s sr.1

omit [Extern] in
theorem plain_names {routed : Bool} {p : String} (m : Message) (h : m.Plain) : m.Names routed p := h routed p

section Methods

variable (routed : Bool) (env : Env) (s : Server) (p : String) (r : Room)

theorem err_spoken (code : String) : Spoken routed p s (s.err p code, r) := emits_err plain_names s p code

theorem errorReply_spoken (req : Value) (code : String) : Spoken routed p s (s.errorReply p req code, r) :=
  emits_errorReply plain_names s p req code

theorem ownerOnly_spoken {k : Out (Server × Room)} (h : k.All (Spoken routed p s)) :
    (s.ownerOnly p r k).All (Spoken routed p s) := by
  unfold ownerOnly
  split
  · exact err_spoken routed s p r _
  · exact h

theorem session_spoken (m : String) (d : Value) : (s.session env p r m d).All (Spoken routed p s) := by
  unfold session
  refine Out.all_ite (fun _ => errorReply_spoken routed s p r _ _) (fun _ => ?_)
  refine Out.all_ite (fun _ => emits_reply plain_names s p _ _) (fun _ => ?_)
  refine Out.all_ite (fun _ => ?_) (fun _ => ?_)
  · unfold getSessionChunk
    refine Out.all_unwrap (fun off _ => Out.all_ite (fun _ => errorReply_spoken routed s p r _ _) (fun _ => ?_))
    refine Out.all_unwrap (fun id _ => emits_bytes s p (fun _ hhead => ?_))
    exact absurd hhead (show ¬ some (3 : UInt8) = some 1 by decide)
  refine Out.all_ite (fun _ => errorReply_spoken routed s p r _ _) (fun _ => ?_)
  refine Out.all_ite (fun _ => ?_) (fun _ => ?_)
  · unfold beginSession
    refine Out.all_ite (fun _ => errorReply_spoken routed s p r _ _) (fun _ => Out.all_unwrap (fun size _ => ?_))
    refine Out.all_ite (fun _ => errorReply_spoken routed s p r _ _) (fun _ => Out.all_unwrap (fun id _ => ?_))
    exact (record_emits s _).trans (emits_reply plain_names _ p _ _)
  · unfold commitSession
    dsimp only
    split
    · exact errorReply_spoken routed s p r _ _
    refine Out.all_unwrap (fun a _ => Out.all_unwrap (fun outsider _ => ?_))
    refine Out.all_ite (fun _ => errorReply_spoken routed s p r _ _) (fun _ => ?_)
    split
    · rename_i st _
      exact (store_emits s st).trans (emits_errorReply plain_names _ p _ _)
    · rename_i st _
      have hrec := fun es => (store_emits (k := true) (P := Message.Names routed p) s st).trans (record_emits _ es)
      refine Emits.trans ((hrec _).trans (emits_reply plain_names _ p _ _)) (emits_broadcast _ _ _ _ ?_)
      exact plain_names _ (plain_text (by decide))

theorem pushDevices_emits {P : Message → Prop} (notice : Value) (room event id : String) (online : Bool) :
    ∀ (ds : List (String × Value)) (s : Server), (pushDevices notice room event id online ds s).All (Emits true P s)
  | [], s => .refl s
  | (device, d) :: ds, s => by
    unfold pushDevices
    split
    · exact pushDevices_emits notice room event id online ds s
    · refine Out.all_unwrap (fun token _ => ?_)
      dsimp only
      generalize ht : ({ s with legacyPushes := s.legacyPushes ++ [_], pushesInFlight := s.pushesInFlight + 1 } : Server) = t
      have hpush : Emits true P s t := by rw [← ht]; exact .same rfl rfl rfl rfl rfl
      exact (pushDevices_emits notice room event id online ds t).mono (fun u h => hpush.trans h)

theorem pushTargets_emits {P : Message → Prop} (notice : Value) (room event p : String) :
    ∀ (vs : List Value) (s : Server), (pushTargets notice room event p vs s).All (Emits true P s)
  | [], s => .refl s
  | v :: vs, s => by
    unfold pushTargets
    refine Out.all_unwrap (fun id _ => ?_)
    split
    · exact pushTargets_emits notice room event p vs s
    · split
      · exact pushTargets_emits notice room event p vs s
      · refine Out.all_andThen (pushDevices_emits _ _ _ _ _ _ s) (fun t ht => ?_) (fun t ht => ht)
        exact (pushTargets_emits notice room event p vs t).mono (fun u hu => Emits.trans ht hu)

theorem notifyPlayers_spoken (d : Value) : (s.notifyPlayers env p r d).All (Spoken routed p s) := by
  unfold notifyPlayers
  refine Out.all_ite (fun _ => err_spoken routed s p r _) (fun _ => ownerOnly_spoken routed s p r ?_)
  refine Out.all_unwrap (fun outsider _ => Out.all_ite (fun _ => err_spoken routed s p r _) (fun _ => ?_))
  refine Out.all_unwrap (fun targets _ => Out.all_unwrap (fun event _ => ?_))
  refine Out.all_ite (fun _ => .refl s) (fun _ => Out.all_ite (fun _ => err_spoken routed s p r _) (fun _ => ?_))
  exact all_mapOut (pushTargets_emits d r.id event p targets s) (fun t ht => ht)

theorem updateRoom_spoken (d : Value) : (s.updateRoom p r d).All (Spoken routed p s) := by
  unfold updateRoom
  refine ownerOnly_spoken routed s p r (Out.all_ite (fun _ => err_spoken routed s p r _) (fun _ => ?_))
  refine Out.all_ite (fun _ => err_spoken routed s p r _) (fun _ => ?_)
  refine Out.all_ite (fun _ => err_spoken routed s p r _) (fun _ => ?_)
  exact (emits_broadcast s _ none none (plain_names _ (plain_text (by decide)))).trans
    (emits_lobby _ (plain_names _ (plain_text (by decide))))

/-- A relayed message is sent as it is, or refused. -/
theorem relay_emits {P : Message → Prop} (hP : ∀ m, m.Plain → P m) {v : Value} (h : P (.text v)) :
    Emits true P s (s.relay p v).1 ∧ ∀ msg, (s.relay p v).2 = some msg → P msg := by
  refine ⟨emits_relay hP s p v, fun msg hm => ?_⟩
  unfold relay at hm
  split at hm
  · rename_i m he
    cases hm
    rw [encoded_some he]
    exact h
  · cases hm

theorem relayTo_emits {P : Message → Prop} (hP : ∀ m, m.Plain → P m) {v : Value} (except : Option String)
    (targets : Option Value) (h : P (.text v)) : Emits true P s (s.relayTo p r v except targets) := by
  obtain ⟨hrel, hmsg⟩ := relay_emits s p hP h
  unfold relayTo
  split
  · rename_i t msg hr
    rw [hr] at hrel hmsg
    exact hrel.trans (emits_broadcastFrame t r except targets (hmsg msg rfl))
  · rename_i t hr
    rw [hr] at hrel
    exact hrel

omit [Extern] in
theorem chatMsg_names (d : Value) : (Message.text (chatMsg p d)).Names routed p := by
  intro a ha
  unfold senderOf at ha
  rw [if_pos (.inl rfl)] at ha
  exact (Option.some.inj ha).symm

omit [Extern] in
theorem messageFromPlayer_names (d : Value) : (Message.text (messageFromPlayer p d)).Names routed p := by
  intro a ha
  unfold senderOf at ha
  rw [if_pos (.inr rfl)] at ha
  exact (Option.some.inj ha).symm

theorem startGame_spoken (d : Value) : (s.startGame env p r d).All (Spoken routed p s) := by
  unfold startGame
  refine ownerOnly_spoken routed s p r (Out.all_ite (fun _ => err_spoken routed s p r _) (fun _ => ?_))
  obtain ⟨hrel, hmsg⟩ := relay_emits (P := Message.Names routed p) s p plain_names (v := gameStarted d)
    (plain_names _ (plain_text (by decide)))
  split
  · rename_i t hr
    rw [hr] at hrel
    exact hrel
  · rename_i t out hr
    rw [hr] at hrel hmsg
    have hrec := fun es => Emits.trans hrel (record_emits t es)
    refine Emits.trans ((hrec _).trans (emits_broadcastFrame _ _ none none (hmsg out rfl))) (emits_lobby _ ?_)
    exact plain_names _ (plain_text (by decide))

theorem setRoomMeta_spoken (d : Value) : (s.setRoomMeta p r d).All (Spoken routed p s) := by
  unfold setRoomMeta
  refine ownerOnly_spoken routed s p r (Out.all_ite (fun _ => err_spoken routed s p r _) (fun _ => ?_))
  obtain ⟨hrel, hmsg⟩ := relay_emits (P := Message.Names routed p) s p plain_names (v := onSetRoomMeta d)
    (plain_names _ (plain_text (by decide)))
  split
  · rename_i t out hr
    rw [hr] at hrel hmsg
    exact hrel.trans (emits_broadcastFrame t _ none none (hmsg out rfl))
  · rename_i t hr
    rw [hr] at hrel
    exact hrel

theorem roomMessage_spoken (m : String) (d : Value) : (s.roomMessage env p r m d).All (Spoken routed p s) := by
  unfold roomMessage
  refine Out.all_ite (fun _ => session_spoken routed env s p r m d) (fun _ => ?_)
  refine Out.all_ite (fun _ => notifyPlayers_spoken routed env s p r d) (fun _ => ?_)
  refine Out.all_ite (fun _ => updateRoom_spoken routed s p r d) (fun _ => ?_)
  refine Out.all_ite (fun _ => relayTo_emits s p r plain_names none none (chatMsg_names routed p d)) (fun _ => ?_)
  refine Out.all_ite (fun _ => relayTo_emits s p r plain_names _ none (messageFromPlayer_names routed p d)) (fun _ => ?_)
  refine Out.all_ite (fun _ => relayTo_emits s p r plain_names none _ (messageFromPlayer_names routed p _)) (fun _ => ?_)
  refine Out.all_ite (fun _ => ?_) (fun _ => ?_)
  · unfold requestGameState
    split
    · exact Out.all_unwrap (fun a _ => emits_send plain_names s _ (plain_names _ (plain_text (by decide))))
    · exact .refl s
  refine Out.all_ite (fun _ => startGame_spoken routed env s p r d) (fun _ => ?_)
  refine Out.all_ite (fun _ => ownerOnly_spoken routed s p r ?_) (fun _ => ?_)
  · exact relayTo_emits s p r plain_names _ _ (plain_names _ (plain_text (by decide)))
  exact Out.all_ite (fun _ => setRoomMeta_spoken routed s p r d) (fun _ => .refl s)

/-- **A room method sends in its member's name.** -/
theorem inRoom_emits (m : String) (d : Value) : (s.inRoom env p m d).All (Emits true (Message.Names routed p) s) := by
  unfold inRoom
  refine Out.all_unwrap (fun player _ => ?_)
  split
  · exact emits_err plain_names s p _
  rename_i id _
  split
  · exact emits_err plain_names s p _
  rename_i r _
  refine all_mapOut (roomMessage_spoken routed env (s.takeRoom id) p r m d) (fun sr h => ?_)
  have htake : Emits true (Message.Names routed p) s (s.takeRoom id) := .same rfl rfl rfl rfl rfl
  exact (htake.trans h).trans (setRoom_emits sr.1 id sr.2)

theorem getSavedRooms_emits : ∀ (ids : List Value) (s : Server),
    (getSavedRooms env p ids s).All (Emits true (Message.Names routed p) s)
  | [], s => .refl s
  | id :: ids, s => by
    unfold getSavedRooms
    refine Out.all_unwrap (fun key _ => ?_)
    split
    · exact .refl s
    · exact (getSavedRooms_emits ids _).mono (fun t ht =>
        (emits_send plain_names s p (plain_names _ (plain_text (by decide)))).trans ht)

theorem changeName_emits (d : Value) : (s.changeName env p d).All (Emits true (Message.Names routed p) s) := by
  unfold changeName
  refine Out.all_unwrap (fun player hp => Out.all_unwrap (fun name _ => ?_))
  dsimp only
  have hcalm : s.Calm (s.setPlayer p { player with name := name }) := .setPlayer_same hp rfl rfl rfl
  generalize ({ player with name := name } : Player) = pl at *
  have hset := fun st => (setPlayer_emits (P := Message.Names routed p) s (fun _ => hcalm)).trans
    (store_emits (k := true) _ st)
  split
  · exact hset _
  · split
    · exact hset _
    · exact (hset _).trans (emits_broadcast _ _ none none (plain_names _ (plain_text (by decide))))

theorem setPushDevice_emits (d : Value) : (s.setPushDevice env p d).All (Emits true (Message.Names routed p) s) := by
  unfold setPushDevice
  refine Out.all_ite (fun _ => emits_err plain_names s p _) (fun _ => ?_)
  refine Out.all_unwrap (fun device _ => Out.all_unwrap (fun player hp => ?_))
  dsimp only
  generalize ht : (if (d.idx "token").isNull then s.setPlayer p { player with devices := player.devices.shiftRemove device }
      else
        { s with players :=
          (s.players.mapVals (fun _ a => claimToken p device (d.idx "token") a)).modify p (fun a => registerDevice a device d)
            }) = t
  have hset : Emits true (Message.Names routed p) s t := by
    rw [← ht]
    split
    · exact setPlayer_emits s (fun _ => .setPlayer_same hp rfl rfl rfl)
    · refine .core rfl rfl rfl (fun _ => Calm.trans (t := { s with
        players := s.players.mapVals (fun _ a => claimToken p device (d.idx "token") a) }) ?_ ?_)
      · refine ⟨rfl, fun {x b k} hb hk => ?_, fun {_ c} hc => ⟨c, hc, rfl⟩⟩
        obtain ⟨a, ha, rfl⟩ := Option.map_eq_some_iff.1 ((IndexMap.get_mapVals ..).symm.trans hb)
        exact ⟨a, ha, hk, Nat.le_refl _, fun _ => rfl⟩
      · exact .modify (fun _ => rfl) (fun _ => ⟨Nat.le_refl _, fun _ => rfl⟩)
  have hsave := fun st => hset.trans (store_emits (k := true) t st)
  refine Out.all_unwrap (fun player' _ => ?_)
  split
  · exact hsave _
  · exact (hsave _).trans (emits_send plain_names _ p (plain_names _ (plain_text (by decide))))

theorem createRoom_emits (d : Value) : (s.createRoom env p d).All (Emits true (Message.Names routed p) s) := by
  unfold createRoom
  refine Out.all_unwrap (fun player _ => Out.all_ite (fun _ => emits_err plain_names s p _) (fun _ => ?_))
  refine Out.all_ite (fun _ => emits_err plain_names s p _) (fun _ => ?_)
  refine Out.all_unwrap (fun name _ => Out.all_unwrap (fun max _ => ?_))
  unfold drawId
  refine Out.all_ite (fun _ => trivial) (fun _ => ?_)
  generalize ht : ({ s with draws := s.draws + 1, drawn := (env.uuid s.draws).text :: s.drawn } : Server) = t
  have hdraw : Emits true (Message.Names routed p) s t := by rw [← ht]; exact .same rfl rfl rfl rfl rfl
  refine Out.all_ite (fun _ => hdraw.trans (emits_err plain_names t p _)) (fun _ => ?_)
  refine Out.all_andThen (P := Emits true (Message.Names routed p) s) ?_ (fun u hu => ?_) (fun _ h => h)
  · refine (enter_emits env _ p _ (d.idx "password")).mono (fun u hu => ?_)
    exact ((hdraw.trans (record_emits t _)).trans (setRoom_emits _ _ _)).trans (hu.mono plain_names)
  · exact Out.all_unwrap (fun r' _ => hu.trans (emits_lobby u (plain_names _ (plain_text (by decide)))))

/-- **A message sends in its account's name.** -/
theorem handle_emits (cid : Nat) (v : Value) : (s.handle env cid p v).All (Emits true (Message.Names routed p) s) := by
  unfold handle
  refine Out.all_unwrap (fun m _ => ?_)
  dsimp only
  refine Out.all_ite (fun _ => ?_) (fun _ => ?_)
  · unfold openUdp
    refine Out.all_ite (fun _ => emits_err plain_names s p _) (fun _ => Out.all_unwrap (fun player _ => ?_))
    refine Out.all_ite (fun _ => emits_err plain_names s p _) (fun _ => Out.all_unwrap (fun c hc => ?_))
    have hdraw : Emits true (Message.Names routed p) s { s with draws := s.draws + 1 } := .same rfl rfl rfl rfl rfl
    refine Emits.trans (hdraw.trans (.setConnection hc ?_ ?_)) (emits_sendC plain_names _ cid ?_)
    · rfl
    · rfl
    · exact plain_names _ (plain_text (by decide))
  refine Out.all_ite (fun _ => ?_) (fun _ => ?_)
  · unfold closeUdp
    refine Out.all_unwrap (fun c hc => ?_)
    refine Emits.trans (.setConnection hc ?_ ?_) (emits_sendC plain_names _ cid ?_)
    · rfl
    · rfl
    · exact plain_names _ (plain_text (by decide))
  refine Out.all_ite (fun _ => ?_) (fun _ => ?_)
  · unfold pong
    refine Out.all_unwrap (fun c hc => ?_)
    split
    · exact .refl s
    · refine Out.all_ite (fun _ => Out.all_unwrap (fun player hp => ?_)) (fun _ => .refl s)
      refine Emits.trans (.setConnection hc ?_ ?_) (setPlayer_emits _ (fun _ => .setPlayer_same (a := player) hp ?_ ?_ ?_))
      all_goals rfl
  refine Out.all_ite (fun _ => ?_) (fun _ => ?_)
  · unfold getRooms
    dsimp only
    split
    · exact emits_err plain_names s p _
    · exact emits_send plain_names s p (plain_names _ (plain_text (by decide)))
  refine Out.all_ite (fun _ => Out.all_unwrap (fun ids _ => getSavedRooms_emits routed env p ids s)) (fun _ => ?_)
  refine Out.all_ite (fun _ => ?_) (fun _ => ?_)
  · unfold getPlayers
    refine Out.all_unwrap (fun x _ => ?_)
    split
    · exact .refl s
    · exact emits_send plain_names s p (plain_names _ (plain_text (by decide)))
  refine Out.all_ite (fun _ => changeName_emits routed env s p _) (fun _ => ?_)
  refine Out.all_ite (fun _ => Out.all_unwrap (fun id _ => ?_)) (fun _ => ?_)
  · exact (enter_emits env s p id _).mono (fun t ht => ht.mono plain_names)
  refine Out.all_ite (fun _ => (leave_emits env s p false).mono (fun t ht => ht.mono plain_names)) (fun _ => ?_)
  refine Out.all_ite (fun _ => setPushDevice_emits routed env s p _) (fun _ => ?_)
  refine Out.all_ite (fun _ => ?_) (fun _ => ?_)
  · unfold getModerationTicket
    refine Out.all_unwrap (fun target _ => Out.all_unwrap (fun room _ => ?_))
    dsimp only
    exact Out.all_ite (fun _ => emits_errorReply plain_names s p _ _) (fun _ => emits_reply plain_names s p _ _)
  exact Out.all_ite (fun _ => createRoom_emits routed env s p _) (fun _ => inRoom_emits routed env s p m _)

end Methods

/-! Binary frames. -/

/-- Does the room `p` is in route binary frames? -/
def routes (s : Server) (p : String) : Bool :=
  (((s.players.get p).bind (·.room)).bind s.rooms.get).any (·.binary)

/-- **A binary frame is relayed in its sender's name.** -/
theorem binary_emits (env : Env) (s : Server) (p : String) (b : Bytes) :
    (s.binary env p b).All (Emits true (Message.Names (s.routes p) p) s) := by
  unfold binary
  refine Out.all_unwrap (fun player hp => ?_)
  split
  · exact .refl s
  rename_i id hid
  split
  · exact .refl s
  rename_i r hr
  have hroutes : s.routes p = r.binary := by
    unfold routes
    rw [hp]
    show ((player.room).bind s.rooms.get).any (·.binary) = _
    rw [hid]
    show (s.rooms.get id).any (·.binary) = _
    rw [hr]
    rfl
  rw [hroutes]
  have htake : Emits true (Message.Names r.binary p) s (s.takeRoom id) := .same rfl rfl rfl rfl rfl
  refine Out.all_ite (fun _ => ?_) (fun _ => Out.all_ite (fun hbin => ?_) (fun _ => ?_))
  · refine all_mapOut (P := Spoken r.binary p s) ?_ (fun sr h => Emits.trans h (setRoom_emits sr.1 id sr.2))
    unfold upload
    refine Out.all_ite (fun _ => htake) (fun _ => ?_)
    split
    · exact htake
    refine Out.all_unwrap (fun bid _ => Out.all_ite (fun _ => ?_) (fun _ => ?_))
    · exact htake.trans (emits_errorReply plain_names _ p _ _)
    · exact (htake.trans (record_emits _ _)).trans (emits_reply plain_names _ p _ _)
  · refine emits_relayBytes s r p _ (fun hrouted => ?_)
    rw [hrouted] at hbin
    cases hbin
  · refine Out.all_ite (fun _ => emits_err plain_names s p _) (fun hhead => ?_)
    refine Out.all_unwrap (fun sender hs => emits_relayBytes s r p _ (fun _ _ => ?_))
    have hlen : (b.take 1).length = 1 := by
      have hh : routedHeader b = true := by simpa using hhead
      unfold routedHeader at hh
      simp only [Bool.and_eq_true, decide_eq_true_eq] at hh
      rw [List.length_take]
      omega
    have hdrop : (b.take 1 ++ sender ++ b.drop 17).drop 1 = sender ++ b.drop 17 := by
      rw [List.append_assoc, List.drop_append_of_le_length (by omega), List.drop_of_length_le (by omega), List.nil_append]
    rw [hs, hdrop, ← length_parseUuid hs, List.take_left]

/-- **Executing a frame sends in its account's name.** -/
theorem dispatch_emits (env : Env) (s : Server) (cid : Nat) (frame : Frame) (parsed : Option Value) {p : String}
    (hp : (s.connections.get cid).bind (·.player) = some p) :
    (s.dispatch env cid frame parsed).All (Emits true (Message.Names (s.routes p) p) s) := by
  unfold dispatch
  rw [hp]
  cases frame with
  | text t =>
    refine Out.all_unwrap (fun v _ => ?_)
    exact reportErr_all (handle_emits _ env s p cid v) (fun _ h => h) (fun t h => h.trans (emits_error plain_names t cid _))
  | binary b =>
    exact reportErr_all (binary_emits env s p b) (fun _ h => h) (fun t h => h.trans (emits_error plain_names t cid _))
  | ping _ => exact .refl s
  | pong _ => exact .refl s

/-! Authentication. -/

theorem bind_emits (env : Env) (s : Server) (cid : Nat) (id : String) (created : Bool) :
    (s.bind env cid id created).All (Emits false Message.Plain s) := by
  unfold bind
  refine Out.all_unwrap (fun p _ => ?_)
  dsimp only
  generalize ({ p with connection := some cid, offline := none, rtt := none } : Player) = pl
  refine Out.all_unwrap (fun c hc => ?_)
  have hbox : ({ c with player := some id } : Connection).outbox = c.outbox := rfl
  generalize ({ c with player := some id } : Connection) = c' at *
  have hset : Emits false Message.Plain s ((s.setPlayer id pl).setConnection cid c') :=
    (setPlayer_emits s (fun h => absurd h Bool.false_ne_true)).trans
      (.quiet (.setConnection hc hbox) (fun h => absurd h Bool.false_ne_true))
  have hsend := fun (s : Server) {v : Value} h => emits_sendC (k := false) (P := Message.Plain) (fun _ h => h) s cid (v := v) h
  split
  · exact hset.trans (store_emits _ _)
  · rename_i st _
    generalize hs₁ : ({ (s.setPlayer id pl).setConnection cid c' with store := st } : Server) = s₁
    have h₁ : Emits false Message.Plain s s₁ := by rw [← hs₁]; exact hset.trans (store_emits _ _)
    have hgreet : ∀ fields w, (Message.text w).Plain → Emits false Message.Plain s (Server.sendC
        (if created then s₁.sendC cid (.obj (("method", .str "accountCreated") :: fields)) else s₁) cid w) := by
      intro fields w hw
      split
      · exact (h₁.trans (hsend s₁ (plain_text (by decide)))).trans (hsend _ hw)
      · exact h₁.trans (hsend s₁ hw)
    have honline : ∀ s : Server, (Message.text s.onConnected).Plain := fun s => plain_text (by decide)
    split
    · exact (hgreet _ _ (honline _)).trans (hsend _ (plain_text (by decide)))
    · exact hgreet _ _ (honline _)

theorem replaceSession_emits (s : Server) (p : Player) : Emits false Message.Plain s (s.replaceSession p) := by
  unfold replaceSession
  split
  · exact (emits_close (fun _ h => h) s _ 1008 _).trans (.core rfl rfl rfl (fun h => absurd h Bool.false_ne_true))
  · exact .refl s

theorem reconnect_emits (env : Env) (s : Server) (cid : Nat) (p : Player) (d : Value) :
    (s.reconnect env cid p d).All (Emits false Message.Plain s) := by
  unfold reconnect
  dsimp only
  generalize ht : (if s.players.contains p.id then s else s.setPlayer p.id p) = t
  have h₁ : Emits false Message.Plain s t := by
    rw [← ht]
    split
    · exact .refl s
    · exact setPlayer_emits s (fun h => absurd h Bool.false_ne_true)
  refine Out.all_andThen (P := Emits false Message.Plain s) ?_ (fun u hu => Out.all_unwrap (fun p' _ => ?_)) (fun _ h => h)
  · refine Out.all_ite (fun _ => (leave_emits env t p.id true).mono (fun _ h => h₁.trans h.loosen)) (fun _ => h₁)
  · refine (bind_emits env _ cid p.id false).mono (fun v hv => ?_)
    exact ((hu.trans (replaceSession_emits u p')).trans (setPlayer_emits _ (fun h => absurd h Bool.false_ne_true))).trans hv

theorem auth_emits (env : Env) (s : Server) (cid : Nat) (d : Value) : (s.auth env cid d).All (Emits false Message.Plain s) := by
  have hexp : Emits false Message.Plain s (s.expire env.now) := expire_emits s env.now
  have hfail := hexp.trans (emits_authenticationFailed (fun _ h => h) (s.expire env.now) cid)
  unfold auth
  dsimp only
  refine Out.all_ite (fun _ => Out.all_ite (fun _ => ?_) (fun _ => ?_)) (fun _ => ?_)
  · exact (hexp.trans (emits_error (fun _ h => h) _ cid _)).trans (emits_close (fun _ h => h) _ cid _ _)
  · unfold drawId
    refine Out.all_ite (fun _ => trivial) (fun _ => ?_)
    generalize ht : ({ s.expire env.now with draws := (s.expire env.now).draws + 1, drawn :=
      (env.uuid (s.expire env.now).draws).text :: (s.expire env.now).drawn } : Server) = t
    have hdraw : Emits false Message.Plain s t := by rw [← ht]; exact hexp.trans (.same rfl rfl rfl rfl rfl)
    refine (bind_emits env _ cid _ true).mono (fun u hu => ?_)
    exact (hdraw.trans (setPlayer_emits t (fun h => absurd h Bool.false_ne_true))).trans hu
  · split
    · exact hexp
    · exact hfail
    · exact Out.all_ite (fun _ => hfail) (fun _ => (reconnect_emits env _ cid _ d).mono (fun u hu => hexp.trans hu))

/-! Commands. -/

/-- The frame names no sender, or the account whose frame the command executes. -/
def Utters (env : Env) (s : Server) (c : Command) (m : Message) : Prop :=
  m.Plain ∨ ∃ t cid frame p, s.Executes env c t cid frame ∧ t.Speaks cid p ∧ m.Names (t.routes p) p

variable {env : Env} {s : Server} {c : Command}

omit [Extern] in
theorem outbox_countFrame (c : Connection) (now : Nat) : (countFrame c now).outbox = c.outbox := rfl

theorem utters_plain (m : Message) (h : m.Plain) : s.Utters env c m := .inl h

theorem dispatch_utters {t : Server} {cid : Nat} {frame : Frame} {p : String} (parsed : Option Value)
    (he : s.Executes env c t cid frame) (hp : t.Speaks cid p) :
    (t.dispatch env cid frame parsed).All (Emits false (s.Utters env c) t) :=
  (dispatch_emits env t cid frame parsed hp.1).mono (fun _ h => h.loosen.mono (fun _ hm => .inr ⟨t, cid, frame, p, he, hp, hm⟩))

theorem submit_utters {cid : Nat} {frame : Frame} {t : Server} {p : String} {roomScoped immediate : Bool}
    {parsed : Option Value} (ht : t.config = s.config) (hp : t.Speaks cid p)
    (hnow : s.config.sendDelayMs = 0 ∨ immediate = true → s.Executes env c t cid frame) :
    (t.submit env cid p frame roomScoped immediate parsed).All (Emits false (s.Utters env c) t) := by
  unfold submit
  split
  · refine Out.all_unwrap (fun k hk => ?_)
    split
    · exact emits_close utters_plain t cid _ _
    · refine Out.all_unwrap (fun player _ => ?_)
      generalize hk' : ({ k with delayed := k.delayed + frame.len, pending := k.pending + 1 } : Connection) = k'
      have hset : Emits false (s.Utters env c) t (t.setConnection cid k') :=
        .setConnection hk (by rw [← hk']; rfl) (by rw [← hk'])
      exact hset.trans (.core rfl rfl rfl (fun h => absurd h Bool.false_ne_true))
  · rename_i hnd
    refine dispatch_utters parsed (hnow ?_) hp
    simp only [Bool.and_eq_true, decide_eq_true_eq, Bool.not_eq_true', not_and, Bool.not_eq_false] at hnd
    rw [ht] at hnd
    by_cases h0 : s.config.sendDelayMs = 0
    · exact .inl h0
    · exact .inr (hnd (by omega))

theorem receive_emits (env : Env) (s : Server) (cid : Nat) (frame : Frame) :
    (s.receive env cid frame).All (Emits false (s.Utters env (.receive cid frame)) s) := by
  unfold receive
  split
  · exact .refl s
  rename_i k hk
  split
  · exact .refl s
  rename_i hopen
  simp only [Bool.or_eq_true, not_or, Bool.not_eq_true', Bool.not_eq_true, Bool.not_eq_false] at hopen
  dsimp only
  generalize ht : s.setConnection cid (countFrame k env.now) = t
  have hcount : Emits false (s.Utters env (.receive cid frame)) s t := by
    rw [← ht]; exact .setConnection hk (outbox_countFrame k env.now) rfl
  have hclose := fun code reason => hcount.trans (emits_close utters_plain t cid code reason)
  have herr := fun code => hcount.trans (emits_error utters_plain t cid code)
  split
  · exact hclose _ _
  rename_i hrate
  have hconf : t.config = s.config := by rw [← ht]; rfl
  have ha : s.Accepts env cid k := ⟨hk, hopen.1, hopen.2, hconf ▸ Nat.le_of_not_lt hrate⟩
  have hspeaks : ∀ p, k.player = some p → t.Speaks cid p := fun p hp => by
    rw [← ht]
    refine ⟨by rw [setConnection, IndexMap.get_insert_self]; exact hp, ?_⟩
    have := hopen.2
    unfold isCurrent at this
    rw [hp] at this
    exact of_decide_eq_true this
  split
  · exact hcount.trans (.raw t cid (utters_plain _ (fun _ _ => trivial)))
  · exact hcount
  · rename_i txt
    split
    · exact hclose _ _
    rename_i hsize
    unfold receiveText
    split
    · exact herr _
    rename_i v hparse
    refine Out.all_ite (fun _ => herr _) (fun hvalid => Out.all_ite (fun _ => herr _) (fun hlen => ?_))
    refine Out.all_unwrap (fun m hm => ?_)
    have hv : s.Valid txt v m := ⟨hparse, by rw [← hconf]; exact eq_true_of_ne_false hvalid, hm⟩
    split
    · refine Out.all_ite (fun _ => ?_) (fun _ => herr _)
      refine reportErr_all (auth_emits env t cid _) (fun u hu => ?_) (fun u hu => ?_)
      · exact hcount.trans (hu.mono utters_plain)
      · exact (hcount.trans (hu.mono utters_plain)).trans (emits_error utters_plain u cid _)
    · rename_i p hp
      refine Out.all_ite (fun _ => herr _) (fun hne => ?_)
      refine (submit_utters hconf (hspeaks p hp) (fun hnow => ?_)).mono (fun u hu => hcount.trans hu)
      rw [← ht]
      exact .text ha hp (hconf ▸ Nat.le_of_not_lt hsize) hv (hconf ▸ Nat.le_of_not_lt hlen) hne
        (hnow.imp (fun h => h) of_decide_eq_true)
  · rename_i b
    split
    · exact hclose _ _
    rename_i hsize
    split
    · exact herr _
    rename_i p hp
    refine Out.all_ite (fun _ => herr _) (fun hfit => ?_)
    refine (submit_utters hconf (hspeaks p hp) (fun hnow => ?_)).mono (fun u hu => hcount.trans hu)
    rw [← ht]
    refine .binary ha hp (hconf ▸ Nat.le_of_not_lt hsize) (hconf ▸ eq_true_of_ne_false hfit) ?_
    rcases hnow with h | h
    · exact h
    · cases h

/-- **Each delayed frame that is due sends in the name of its account.** -/
theorem runDelayed_emits : ∀ (post pre : List Delayed) (t : Server), s.delayed = pre ++ post →
    runDelayed env pre { s with delayed := [] } = .ok t →
    (runDelayed env post t).All (Emits false (s.Utters env .sweep) t)
  | [], _, t, _, _ => .refl t
  | d :: post, pre, t, hs, ht => by
    have hsplit : s.delayed = (pre ++ [d]) ++ post := by rw [hs, List.append_assoc]; rfl
    have hone : ∀ u, runDelayed env [d] t = .ok u → runDelayed env (pre ++ [d]) { s with delayed := [] } = .ok u :=
      fun u hu => by rw [runDelayed_append, ht]; exact hu
    unfold runDelayed
    split
    · rename_i hlt
      have hq : Emits false (s.Utters env .sweep) t { t with delayed := t.delayed ++ [d] } :=
        .core rfl rfl rfl (fun h => absurd h Bool.false_ne_true)
      refine (runDelayed_emits post _ _ hsplit (hone _ ?_)).mono (fun u hu => hq.trans hu)
      rw [runDelayed, if_pos hlt, runDelayed]
    rename_i hdue
    split
    · rename_i hn
      refine runDelayed_emits post _ t hsplit (hone _ ?_)
      rw [runDelayed, if_neg hdue, hn, runDelayed]
    rename_i k hk
    dsimp only
    have hset : Emits false (s.Utters env .sweep) t (t.setConnection d.cid (unqueue d k)) := .setConnection hk rfl rfl
    split
    · rename_i hrun
      obtain ⟨p, hp⟩ := mayRun_speaks hrun (IndexMap.get_insert_self _ _ _) rfl
      have hdisp := dispatch_utters none (.due hs ht (Nat.le_of_not_lt hdue) hk hrun) hp
      generalize hres : dispatch env (t.setConnection d.cid (unqueue d k)) d.cid d.frame none = o at hdisp
      cases o with
      | ok u =>
        refine (runDelayed_emits post _ u hsplit (hone _ ?_)).mono (fun u' hu' => (hset.trans hdisp).trans hu')
        rw [runDelayed, if_neg hdue, hk]
        dsimp only
        rw [if_pos hrun, hres]
        rfl
      | err u => exact hset.trans hdisp
      | halt h => trivial
    · rename_i hrun
      refine (runDelayed_emits post _ _ hsplit (hone _ ?_)).mono (fun u hu => hset.trans hu)
      rw [runDelayed, if_neg hdue, hk]
      dsimp only
      rw [if_neg hrun, runDelayed]

theorem keepEmpty_emits (env : Env) : ∀ (ids : List String) (s : Server),
    (keepEmpty env ids s).All (Emits true Message.Plain s)
  | [], s => .refl s
  | id :: ids, s => by
    unfold keepEmpty
    refine Out.all_unwrap (fun r _ => (keepEmpty_emits env ids _).mono (fun u hu => ?_))
    exact ((removeRoom_emits s id).trans (keep_emits env _ r)).trans hu

theorem sweepConnection_emits {cid : Nat} {k : Connection} (hk : s.connections.get cid = some k) :
    Emits true Message.Plain s (s.sweepConnection env cid k).1 := by
  have hclose := fun reason => emits_close (k := true) (P := Message.Plain) (fun _ h => h) s cid 1008 reason
  unfold sweepConnection
  dsimp only
  split
  · split
    · exact hclose _
    · exact .refl s
  · split
    · exact hclose _
    · split
      · split
        · refine Emits.trans (.setConnection hk ?_ ?_) (emits_sendC (fun _ h => h) _ cid ?_)
          · rfl
          · rfl
          · exact plain_text (by decide)
        · exact .setConnection hk rfl rfl
      · exact .refl s

theorem sweepConnections_emits (env : Env) : ∀ (cids : List Nat) (s : Server) (heartbeat : Bool),
    (sweepConnections env cids s heartbeat).All (fun u => Emits true Message.Plain s u.1)
  | [], s, _ => Emits.refl s
  | cid :: cids, s, heartbeat => by
    unfold sweepConnections
    refine Out.all_unwrap (fun k hk => ?_)
    exact (sweepConnections_emits env cids _ _).mono (fun u hu => (sweepConnection_emits hk).trans hu)

theorem sweep_emits (env : Env) (s : Server) : (s.sweep env).All (Emits false (s.Utters env .sweep) s) := by
  unfold sweep
  have h₀ : Emits false (s.Utters env .sweep) s { s with delayed := [] } := .core rfl rfl rfl (fun h => absurd h Bool.false_ne_true)
  refine Out.all_andThen ((runDelayed_emits s.delayed [] _ rfl rfl).mono (fun t h => h₀.trans h)) (fun t ht => ?_)
    (fun _ h => h)
  refine Out.all_andThen (P := Emits false (s.Utters env .sweep) s) ?_ (fun u hu => ?_) (fun _ h => h)
  · unfold sweepRooms
    dsimp only
    generalize ht' : ({ t with rooms := t.rooms.mapVals (fun _ r => timeoutUpload env.now r) } : Server) = t'
    have htime : Emits false (s.Utters env .sweep) t t' := by rw [← ht']; exact .same rfl rfl rfl rfl rfl
    exact (keepEmpty_emits env _ t').mono (fun u hu => (ht.trans htime).trans (hu.loosen.mono utters_plain))
  · have hconn := sweepConnections_emits env u.connections.keys u false
    generalize sweepConnections env u.connections.keys u false = o at hconn
    cases o with
    | ok x =>
      obtain ⟨v, heartbeat⟩ := x
      have hv := hu.trans (Emits.mono utters_plain (Emits.loosen hconn))
      refine Emits.trans ?_ (expire_emits _ env.now)
      cases heartbeat
      · exact hv
      · exact hv.trans (Emits.foldl (fun s r => emits_broadcast s r none none (utters_plain _ (plain_text (by decide)))) _ v)
    | err x => exact hu.trans (Emits.mono utters_plain (Emits.loosen hconn))
    | halt h => trivial

/-- **Every command sends frame by frame**, and names as a sender only the account whose frame it executes. -/
theorem step_emits {t : Server} (h : s.step env c = some t) :
    (∃ cid, c = .connected cid ∧ s.connections.get cid = none ∧ t = s.connected env cid) ∨
      Emits false (s.Utters env c) s t := by
  cases c with
  | connected cid =>
    simp only [step] at h
    split at h
    · cases h
    · rename_i hn
      cases h
      exact .inl ⟨cid, rfl, IndexMap.contains_eq_false.1 (by simpa using hn), rfl⟩
  | receive cid frame => exact .inr (Out.all_of_state (receive_emits env s cid frame) h)
  | disconnect cid =>
    exact .inr (Out.all_of_state ((disconnect_emits env s cid).mono (fun _ h => h.mono utters_plain)) h)
  | sweep => exact .inr (Out.all_of_state (sweep_emits env s) h)

end Server
end Relay
