import GameRelay.Enrolments
import GameRelay.Heartbeats
/-!
# Tenures — what decides how long an account stays

An account in memory has a connection, or has been without one since some time.  `Server.Retains` leaves that alone, with
identifiers and passwords, and writes account files only as these are in memory.  **Every message keeps tenures**
(`retains_handle`), so that only authentication, disconnects and expiry change them.
-/
namespace Relay

structure Tenure where
  id : String
  password : String
  connection : Option Nat
  offline : Option Nat

def Player.tenure (p : Player) : Tenure := ⟨p.id, p.password, p.connection, p.offline⟩

/-- The identifier and the password in an account file. -/
def credentials (v : Value) : Option (String × String) :=
  ((v.idx "id").asStr).map (fun id => (id, ((v.idx "password").asStr).getD ""))

theorem credentials_accountFile (p : Player) : credentials (Store.accountFile p) = some (p.id, p.password) := rfl

variable [Extern]

namespace Server

def tenure (s : Server) (id : String) : Option Tenure := (s.players.get id).map Player.tenure

/-- The file under `k` is that of an account in memory. -/
def Copies (s : Server) (k : String) : Prop :=
  ∃ id q v, s.tenure id = some q ∧ k = lowerText q.id ∧ s.store.accounts.get k = some (some v) ∧
    credentials v = some (q.id, q.password)

structure Retains (s t : Server) : Prop where
  tenure : ∀ id, t.tenure id = s.tenure id
  enabled : t.store.enabled = s.store.enabled
  files : ∀ k, t.store.accounts.get k = s.store.accounts.get k ∨ t.Copies k
  drawn : ∀ x ∈ s.drawn, x ∈ t.drawn

namespace Retains

variable {s t u : Server}

omit [Extern] in
theorem core (h : t.toCore = s.toCore) : s.Retains t :=
  ⟨fun id => congrArg (fun c : Core => (c.players.get id).map Player.tenure) h, congrArg (fun c : Core => c.store.enabled) h,
    fun k => .inl (congrArg (fun c : Core => c.store.accounts.get k) h), fun x hx => by
      rwa [show t.drawn = s.drawn from congrArg Core.drawn h]⟩

omit [Extern] in
theorem refl (s : Server) : s.Retains s := core rfl

omit [Extern] in
theorem trans (h : s.Retains t) (h' : t.Retains u) : s.Retains u := by
  refine ⟨fun id => (h'.tenure id).trans (h.tenure id), h'.enabled.trans h.enabled, fun k => ?_,
    fun x hx => h'.drawn x (h.drawn x hx)⟩
  rcases h'.files k with hk | hk
  · rcases h.files k with hk₀ | ⟨id, q, v, hq, hkey, hget, hv⟩
    · exact .inl (hk.trans hk₀)
    · exact .inr ⟨id, q, v, (h'.tenure id).trans hq, hkey, hk.trans hget, hv⟩
  · exact .inr hk

omit [Extern] in
theorem sent (h : Sent s t) : s.Retains t := core h.1

omit [Extern] in
/-- What neither the accounts nor their files see. -/
theorem same (hp : t.players = s.players) (ha : t.store.accounts = s.store.accounts)
    (he : t.store.enabled = s.store.enabled) (hd : ∀ x ∈ s.drawn, x ∈ t.drawn) : s.Retains t :=
  ⟨fun id => by rw [Server.tenure, hp]; rfl, he, fun k => .inl (by rw [ha]), hd⟩

omit [Extern] in
theorem mapPlayers {f : String → Player → Player} (hf : ∀ id p, (f id p).tenure = p.tenure) :
    s.Retains { s with players := s.players.mapVals f } := by
  refine ⟨fun id => ?_, rfl, fun k => .inl rfl, fun _ h => h⟩
  show ((s.players.mapVals f).get id).map Player.tenure = (s.players.get id).map Player.tenure
  rw [IndexMap.get_mapVals, Option.map_map]
  exact congrArg (fun g => (s.players.get id).map g) (funext (hf id))

omit [Extern] in
theorem setPlayer {id : String} {p p' : Player} (hp : s.players.get id = some p) (h : p'.tenure = p.tenure) :
    s.Retains (s.setPlayer id p') := by
  refine ⟨fun x => ?_, rfl, fun k => .inl rfl, fun _ h => h⟩
  show ((s.players.insert id p').get x).map Player.tenure = (s.players.get x).map Player.tenure
  rw [IndexMap.get_insert]
  split
  · rename_i hx
    rw [hx, hp]
    exact congrArg some h
  · rfl

omit [Extern] in
/-- An account in memory is saved, or not. -/
theorem saved {io : Nat → Bool} {id : String} {p : Player} {st : Store} {ok : Bool} (hp : s.players.get id = some p)
    (h : s.store.saveAccount io p = (st, ok)) : s.Retains { s with store := st } := by
  unfold Store.saveAccount at h
  split at h
  · cases h; exact .refl s
  split at h
  · cases h; exact .refl s
  split at h
  · cases h
    refine ⟨fun _ => rfl, rfl, fun k => ?_, fun _ h => h⟩
    by_cases hk : k = lowerText p.id
    · refine .inr ⟨id, p.tenure, Store.accountFile p, ?_, hk, ?_, credentials_accountFile p⟩
      · show (s.players.get id).map Player.tenure = _
        rw [hp]
        rfl
      · rw [hk]
        exact IndexMap.get_insert_self _ _ _
    · exact .inl (IndexMap.get_insert_ne _ _ hk)
  · cases h; exact .same rfl rfl rfl (fun _ h => h)

end Retains

/-! Rooms. -/

theorem retains_keep (env : Env) (s : Server) (r : Room) : s.Retains (s.keep env r) := by
  unfold keep
  split
  · split
    · rename_i st hst
      obtain ⟨-, ha, he, -⟩ := Store.save_spec hst
      obtain ⟨ids, -, hp⟩ := Store.prune_spec env.io st s.rooms.keys env.now
      dsimp only
      have hprune : s.Retains (({ s with store := (st.prune env.io s.rooms.keys env.now).store } : Server).record
          ((st.prune env.io s.rooms.keys env.now).gone.map .evicted)) :=
        .same rfl (hp.accounts.trans ha) (hp.enabled.trans he) (fun _ h => h)
      split
      · exact hprune.trans (.sent (Sent.foldl (fun s _ => sent_lobby s _) _ _))
      · exact hprune
    · rename_i st hst
      obtain ⟨-, ha, he, -⟩ := Store.save_spec hst
      exact .same rfl ha he (fun _ h => h)
  · exact .same rfl rfl rfl (fun _ h => h)

omit [Extern] in
theorem retains_releaseMembers : ∀ (ids : List String) (s : Server), s.Retains (s.releaseMembers ids)
  | [], s => .refl s
  | id :: ids, s => by
    have hone : s.Retains { s with players := s.players.modify id releasePlayer } :=
      Retains.mapPlayers (fun k p => by split <;> rfl)
    exact hone.trans (retains_releaseMembers ids _)

theorem retains_leave (env : Env) (s : Server) (p : String) (d : Bool) : (s.leave env p d).All s.Retains := by
  unfold leave
  refine Out.all_unwrap (fun player hp => ?_)
  have h₁ : s.Retains (if d then s.setPlayer p (releasePlayer player)
      else (s.setPlayer p (releasePlayer player)).dropReservations p) := by
    have hrelease : s.Retains (s.setPlayer p (releasePlayer player)) := .setPlayer hp rfl
    split
    · exact hrelease
    · exact hrelease.trans (.same rfl rfl rfl (fun _ h => h))
  dsimp only
  generalize (if d then s.setPlayer p (releasePlayer player)
      else (s.setPlayer p (releasePlayer player)).dropReservations p) = s₁ at h₁ ⊢
  split
  · exact h₁
  split
  · exact h₁
  rename_i id _ _ r _
  generalize departed r p d = r₁
  have hgone : s.Retains (s₁.removeRoom id) := h₁.trans (.same rfl rfl rfl (fun _ h => h))
  generalize htold : (s₁.removeRoom id).broadcast r₁ _ none none = s₂
  have h₂ : s.Retains s₂ := by
    rw [← htold]
    exact hgone.trans (.sent (sent_broadcast (s₁.removeRoom id) r₁ _ none none))
  generalize hlost : (if ownerLost r₁ p then s₂.releaseMembers r₁.active.items else s₂) = s₃
  have h₃ : s.Retains s₃ := by
    rw [← hlost]
    split
    · exact h₂.trans (retains_releaseMembers _ s₂)
    · exact h₂
  generalize (if ownerLost r₁ p then ({ r₁ with active := IndexSet.empty } : Room) else r₁) = r₂
  refine Out.all_ite (fun _ => Out.all_ite (fun _ => ?_) (fun _ => ?_)) (fun _ => Out.all_unwrap (fun first _ => ?_))
  · exact h₃.trans (retains_keep env s₃ r₂)
  · exact h₃.trans (.sent (sent_lobby s₃ _))
  · refine h₃.trans (Retains.trans (Retains.trans ?_ (.sent (sent_offerSeats _ _))) (.same rfl rfl rfl (fun _ h => h)))
    split
    · have hrecord : s₃.Retains (s₃.record [.hosted r₂.id first (r₂.generation + 1)]) := .same rfl rfl rfl (fun _ h => h)
      exact hrecord.trans (.sent (sent_broadcast _ _ _ none none))
    · exact .refl s₃

theorem retains_enter (env : Env) (s : Server) (p id : String) (pw : Value) : (s.enter env p id pw).All s.Retains := by
  refine enter_all (.refl s) (fun t code ht => ht.trans (.sent (sent_err t p code)))
    (fun _ => .same rfl rfl rfl (fun _ h => h)) (fun _ ht => ht.trans (.same rfl rfl rfl (fun _ h => h)))
    (fun t player loaded r hp hpl ht => ht.trans ?_)
  unfold seatIn
  dsimp only
  refine Retains.trans (Retains.trans ?_ (.sent (sent_broadcast _ _ _ _ _))) (.sent (sent_send _ p _))
  have hrecord : t.Retains ((t.record (entryEvents loaded r p)).setRoom id (joined r p)) := .same rfl rfl rfl (fun _ h => h)
  exact hrecord.trans (.setPlayer (p := player) (by rw [← hp, ← hpl]; rfl) rfl)

/-! The methods of a room leave the accounts alone. -/

section Methods

variable (env : Env) (s : Server) (p : String) (r : Room)

theorem retains_commitSession (d : Value) : (s.commitSession env p r d).All (fun sr => s.Retains sr.1) := by
  unfold commitSession
  dsimp only
  split
  · exact .sent (sent_errorReply s p _ _)
  refine Out.all_unwrap (fun a _ => Out.all_unwrap (fun outsider _ => ?_))
  refine Out.all_ite (fun _ => .sent (sent_errorReply s p _ _)) (fun _ => ?_)
  have hstore : ∀ {st ok}, s.store.commit env.io r (d.idx "scheduled") (d.idx "immediate") = (st, ok) →
      s.Retains { s with store := st } := fun h => by
    have hf := Store.setJobs_files env.io s.store r.id (Store.commitJobs r.events ((s.store.jobs.get r.id).getD [])
      (d.idx "scheduled") (d.idx "immediate"))
    rw [show Store.setJobs env.io s.store r.id _ = _ from h] at hf
    exact .same rfl hf.2.1 hf.2.2 (fun _ h => h)
  split
  · rename_i st hst
    exact (hstore hst).trans (.sent (sent_errorReply _ p _ _))
  · rename_i st hst
    refine Retains.trans ?_ (.sent ((sent_reply _ p _ _).trans (sent_broadcast _ _ _ _ _)))
    exact (hstore hst).trans (.same rfl rfl rfl (fun _ h => h))

theorem retains_session (m : String) (d : Value) : (s.session env p r m d).All (fun sr => s.Retains sr.1) := by
  unfold session
  dsimp only
  refine Out.all_ite (fun _ => .sent (sent_errorReply s p _ _)) (fun _ => ?_)
  refine Out.all_ite (fun _ => .sent (sent_reply s p _ _)) (fun _ => ?_)
  refine Out.all_ite (fun _ => ?_) (fun _ => ?_)
  · unfold getSessionChunk
    refine Out.all_unwrap (fun off _ => Out.all_ite (fun _ => .sent (sent_errorReply s p _ _)) (fun _ => ?_))
    exact Out.all_unwrap (fun id _ => .sent (sent_bytes s p _))
  refine Out.all_ite (fun _ => .sent (sent_errorReply s p _ _)) (fun _ => ?_)
  refine Out.all_ite (fun _ => ?_) (fun _ => retains_commitSession env s p r d)
  unfold beginSession
  dsimp only
  refine Out.all_ite (fun _ => .sent (sent_errorReply s p _ _)) (fun _ => Out.all_unwrap (fun size _ => ?_))
  refine Out.all_ite (fun _ => .sent (sent_errorReply s p _ _)) (fun _ => Out.all_unwrap (fun id _ => ?_))
  exact Retains.trans (t := s.record _) (.same rfl rfl rfl (fun _ h => h)) (.sent (sent_reply (s.record _) p _ _))

omit [Extern] in
theorem retains_pushDevices (notice : Value) (room event id : String) (online : Bool) :
    ∀ (ds : List (String × Value)) (s : Server), (pushDevices notice room event id online ds s).All s.Retains
  | [], s => .refl s
  | (device, d) :: ds, s => by
    unfold pushDevices
    split
    · exact retains_pushDevices notice room event id online ds s
    · refine Out.all_unwrap (fun token _ => ?_)
      dsimp only
      generalize ht : ({ s with legacyPushes := s.legacyPushes ++ [_], pushesInFlight := s.pushesInFlight + 1 } : Server) = t
      have hpush : s.Retains t := by rw [← ht]; exact .same rfl rfl rfl (fun _ h => h)
      exact (retains_pushDevices notice room event id online ds t).mono (fun u h => hpush.trans h)

omit [Extern] in
theorem retains_pushTargets (notice : Value) (room event p : String) :
    ∀ (vs : List Value) (s : Server), (pushTargets notice room event p vs s).All s.Retains
  | [], s => .refl s
  | v :: vs, s => by
    unfold pushTargets
    refine Out.all_unwrap (fun id _ => ?_)
    split
    · exact retains_pushTargets notice room event p vs s
    · split
      · exact retains_pushTargets notice room event p vs s
      · refine Out.all_andThen (retains_pushDevices _ _ _ _ _ _ s) (fun t ht => ?_) (fun t ht => ht)
        exact (retains_pushTargets notice room event p vs t).mono (fun u hu => Retains.trans ht hu)

theorem retains_notifyPlayers (d : Value) : (s.notifyPlayers env p r d).All (fun sr => s.Retains sr.1) := by
  unfold notifyPlayers
  refine Out.all_ite (fun _ => .sent (sent_err s p _)) (fun _ => ?_)
  refine ownerOnly_all (P := s.Retains) (.sent (sent_err s p _)) ?_
  refine Out.all_unwrap (fun outsider _ => Out.all_ite (fun _ => .sent (sent_err s p _)) (fun _ => ?_))
  refine Out.all_unwrap (fun targets _ => Out.all_unwrap (fun event _ => ?_))
  refine Out.all_ite (fun _ => .refl s) (fun _ => Out.all_ite (fun _ => .sent (sent_err s p _)) (fun _ => ?_))
  exact all_mapOut (retains_pushTargets d r.id event p targets s) (fun t ht => ht)

theorem retains_startGame (d : Value) : (s.startGame env p r d).All (fun sr => s.Retains sr.1) := by
  unfold startGame
  refine ownerOnly_all (P := s.Retains) (.sent (sent_err s p _)) ?_
  refine Out.all_ite (fun _ => .sent (sent_err s p _)) (fun _ => ?_)
  have hrel := sent_relay s p (gameStarted d)
  split
  · rename_i t hr
    rw [hr] at hrel
    exact .sent hrel
  · rename_i t out hr
    rw [hr] at hrel
    refine Retains.trans ?_ (.sent ((sent_broadcastFrame _ _ _ none none).trans (sent_lobby _ _)))
    exact Retains.trans (.sent hrel) (.same rfl rfl rfl (fun _ h => h))

theorem retains_roomMessage (m : String) (d : Value) : (s.roomMessage env p r m d).All (fun sr => s.Retains sr.1) := by
  have herr : ∀ code, s.Retains (s.err p code) := fun code => .sent (sent_err s p code)
  unfold roomMessage
  refine Out.all_ite (fun _ => retains_session env s p r m d) (fun _ => ?_)
  refine Out.all_ite (fun _ => retains_notifyPlayers env s p r d) (fun _ => ?_)
  refine Out.all_ite (fun _ => ?_) (fun _ => ?_)
  · unfold updateRoom
    refine ownerOnly_all (P := s.Retains) (herr _) (Out.all_ite (fun _ => herr _) (fun _ => ?_))
    refine Out.all_ite (fun _ => herr _) (fun _ => Out.all_ite (fun _ => herr _) (fun _ => ?_))
    exact .sent ((sent_broadcast s _ _ none none).trans (sent_lobby _ _))
  refine Out.all_ite (fun _ => .sent (sent_relayTo s p r _ none none)) (fun _ => ?_)
  refine Out.all_ite (fun _ => .sent (sent_relayTo s p r _ (some p) none)) (fun _ => ?_)
  refine Out.all_ite (fun _ => .sent (sent_relayTo s p r _ none _)) (fun _ => ?_)
  refine Out.all_ite (fun _ => ?_) (fun _ => ?_)
  · unfold requestGameState
    exact Out.all_ite (fun _ => Out.all_unwrap (fun a _ => .sent (sent_send s _ _))) (fun _ => .refl s)
  refine Out.all_ite (fun _ => retains_startGame env s p r d) (fun _ => ?_)
  refine Out.all_ite (fun _ => ownerOnly_all (P := s.Retains) (herr _) ?_) (fun _ => Out.all_ite (fun _ => ?_) (fun _ => .refl s))
  · exact .sent (sent_relayTo s p r _ _ _)
  · unfold setRoomMeta
    refine ownerOnly_all (P := s.Retains) (herr _) (Out.all_ite (fun _ => herr _) (fun _ => ?_))
    have hrel := sent_relay s p (onSetRoomMeta d)
    split
    · rename_i t out hr
      rw [hr] at hrel
      exact .sent (hrel.trans (sent_broadcastFrame _ _ _ none none))
    · rename_i t hr
      rw [hr] at hrel
      exact .sent hrel

theorem retains_inRoom (m : String) (d : Value) : (s.inRoom env p m d).All s.Retains := by
  unfold inRoom
  refine Out.all_unwrap (fun player _ => ?_)
  split
  · exact .sent (sent_err s p _)
  rename_i id _
  split
  · exact .sent (sent_err s p _)
  rename_i r _
  refine all_mapOut (retains_roomMessage env (s.takeRoom id) p r m d) (fun sr h => ?_)
  exact Retains.trans (t := s.takeRoom id) (.same rfl rfl rfl (fun _ h => h)) (h.trans (.same rfl rfl rfl (fun _ h => h)))

/-! The methods of an account. -/

theorem retains_getSavedRooms : ∀ (ids : List Value) (s : Server), (getSavedRooms env p ids s).All s.Retains
  | [], s => .refl s
  | id :: ids, s => by
    unfold getSavedRooms
    refine Out.all_unwrap (fun key _ => ?_)
    split
    · exact .refl s
    · exact (retains_getSavedRooms ids _).mono (fun t ht => Retains.trans (.sent (sent_send s p _)) ht)

theorem retains_changeName (d : Value) : (s.changeName env p d).All s.Retains := by
  unfold changeName
  refine Out.all_unwrap (fun player hp => Out.all_unwrap (fun name _ => ?_))
  dsimp only
  have hset : s.Retains (s.setPlayer p { player with name := name }) := .setPlayer hp rfl
  generalize ({ player with name := name } : Player) = pl at *
  have hget : (s.setPlayer p pl).players.get p = some pl := IndexMap.get_insert_self _ _ _
  split
  · rename_i st hst
    exact hset.trans (.saved hget hst)
  · rename_i st hst
    have hsave := hset.trans (.saved hget hst)
    split
    · exact hsave
    · exact hsave.trans (.sent (sent_broadcast _ _ _ none none))

theorem retains_setPushDevice (d : Value) : (s.setPushDevice env p d).All s.Retains := by
  unfold setPushDevice
  refine Out.all_ite (fun _ => .sent (sent_err s p _)) (fun _ => ?_)
  refine Out.all_unwrap (fun device _ => Out.all_unwrap (fun player hp => ?_))
  dsimp only
  generalize ht : (if (d.idx "token").isNull then s.setPlayer p { player with devices := player.devices.shiftRemove device }
      else
        { s with players :=
          (s.players.mapVals (fun _ a => claimToken p device (d.idx "token") a)).modify p (fun a => registerDevice a device d)
            }) = t
  have hset : s.Retains t := by
    rw [← ht]
    split
    · exact .setPlayer hp rfl
    · have hclaim : s.Retains { s with players := s.players.mapVals (fun _ a => claimToken p device (d.idx "token") a) } :=
        Retains.mapPlayers (fun _ _ => rfl)
      exact hclaim.trans (Retains.mapPlayers (fun k p => by split <;> rfl))
  refine Out.all_unwrap (fun player' hget => ?_)
  split
  · rename_i st hst
    exact hset.trans (.saved hget hst)
  · rename_i st hst
    exact (hset.trans (.saved hget hst)).trans (.sent (sent_send _ p _))

theorem retains_createRoom (d : Value) : (s.createRoom env p d).All s.Retains := by
  unfold createRoom
  refine Out.all_unwrap (fun player _ => Out.all_ite (fun _ => .sent (sent_err s p _)) (fun _ => ?_))
  refine Out.all_ite (fun _ => .sent (sent_err s p _)) (fun _ => ?_)
  refine Out.all_unwrap (fun name _ => Out.all_unwrap (fun max _ => ?_))
  unfold drawId
  refine Out.all_ite (fun _ => trivial) (fun _ => ?_)
  generalize ht : ({ s with draws := s.draws + 1, drawn := (env.uuid s.draws).text :: s.drawn } : Server) = t
  have hdraw : s.Retains t := by rw [← ht]; exact .same rfl rfl rfl (fun _ h => List.mem_cons_of_mem _ h)
  refine Out.all_ite (fun _ => hdraw.trans (.sent (sent_err t p _))) (fun _ => ?_)
  refine Out.all_andThen (P := s.Retains) ?_ (fun u hu => ?_) (fun _ h => h)
  · refine (retains_enter env _ p _ (d.idx "password")).mono (fun u hu => ?_)
    exact (hdraw.trans (.same (t := (t.record _).setRoom _ _) rfl rfl rfl (fun _ h => h))).trans hu
  · exact Out.all_unwrap (fun r' _ => hu.trans (.sent (sent_lobby u _)))

/-- **Every message keeps tenures.** -/
theorem retains_handle (cid : Nat) (v : Value) : (s.handle env cid p v).All s.Retains := by
  have herr : ∀ code, s.Retains (s.err p code) := fun code => .sent (sent_err s p code)
  unfold handle
  refine Out.all_unwrap (fun m _ => ?_)
  dsimp only
  refine Out.all_ite (fun _ => ?_) (fun _ => ?_)
  · unfold openUdp
    refine Out.all_ite (fun _ => herr _) (fun _ => Out.all_unwrap (fun player _ => ?_))
    refine Out.all_ite (fun _ => herr _) (fun _ => Out.all_unwrap (fun c _ => ?_))
    refine Retains.trans ?_ (.sent (sent_sendC _ cid _))
    exact .same rfl rfl rfl (fun _ h => h)
  refine Out.all_ite (fun _ => ?_) (fun _ => ?_)
  · unfold closeUdp
    refine Out.all_unwrap (fun c _ => Retains.trans ?_ (.sent (sent_sendC _ cid _)))
    exact .same rfl rfl rfl (fun _ h => h)
  refine Out.all_ite (fun _ => ?_) (fun _ => ?_)
  · unfold pong
    refine Out.all_unwrap (fun c _ => ?_)
    split
    · exact .refl s
    · refine Out.all_ite (fun _ => Out.all_unwrap (fun player hp => ?_)) (fun _ => .refl s)
      have hping : s.Retains (s.setConnection cid { c with ping := none }) := .same rfl rfl rfl (fun _ h => h)
      exact hping.trans (.setPlayer (p := player) hp rfl)
  refine Out.all_ite (fun _ => .sent (getRooms_sent s p _)) (fun _ => ?_)
  refine Out.all_ite (fun _ => Out.all_unwrap (fun ids _ => retains_getSavedRooms env p ids s)) (fun _ => ?_)
  refine Out.all_ite (fun _ => ?_) (fun _ => ?_)
  · unfold getPlayers
    refine Out.all_unwrap (fun x _ => ?_)
    split
    · exact .refl s
    · exact .sent (sent_send s p _)
  refine Out.all_ite (fun _ => retains_changeName env s p _) (fun _ => ?_)
  refine Out.all_ite (fun _ => Out.all_unwrap (fun id _ => retains_enter env s p id _)) (fun _ => ?_)
  refine Out.all_ite (fun _ => retains_leave env s p false) (fun _ => ?_)
  refine Out.all_ite (fun _ => retains_setPushDevice env s p _) (fun _ => ?_)
  refine Out.all_ite (fun _ => ?_) (fun _ => ?_)
  · unfold getModerationTicket
    refine Out.all_unwrap (fun target _ => Out.all_unwrap (fun room _ => ?_))
    dsimp only
    exact Out.all_ite (fun _ => .sent (sent_errorReply s p _ _)) (fun _ => .sent (sent_reply s p _ _))
  exact Out.all_ite (fun _ => retains_createRoom env s p _) (fun _ => retains_inRoom env s p m _)

theorem retains_binary (b : Bytes) : (s.binary env p b).All s.Retains := by
  unfold binary
  refine Out.all_unwrap (fun player _ => ?_)
  split
  · exact .refl s
  rename_i id _
  split
  · exact .refl s
  rename_i r _
  have htake : s.Retains (s.takeRoom id) := .same rfl rfl rfl (fun _ h => h)
  refine Out.all_ite (fun _ => ?_) (fun _ => Out.all_ite (fun _ => .sent (sent_relayBytes s r p _ b)) (fun _ => ?_))
  · refine all_mapOut (P := fun sr => s.Retains sr.1) ?_ (fun sr h => Retains.trans h (.same rfl rfl rfl (fun _ h => h)))
    unfold upload
    refine Out.all_ite (fun _ => htake) (fun _ => ?_)
    split
    · exact htake
    refine Out.all_unwrap (fun bid _ => Out.all_ite (fun _ => ?_) (fun _ => ?_))
    · exact htake.trans (.sent (sent_errorReply _ p _ _))
    · refine htake.trans (Retains.trans ?_ (.sent (sent_reply _ p _ _)))
      exact .same rfl rfl rfl (fun _ h => h)
  · refine Out.all_ite (fun _ => .sent (sent_err s p _)) (fun _ => ?_)
    exact Out.all_unwrap (fun sender _ => .sent (sent_relayBytes s r p _ _))

end Methods

/-! Frames and maintenance. -/

theorem retains_dispatch (env : Env) (s : Server) (cid : Nat) (frame : Frame) (parsed : Option Value) :
    (s.dispatch env cid frame parsed).All s.Retains := by
  unfold dispatch
  split
  · exact .refl s
  rename_i p _
  cases frame with
  | text t =>
    refine Out.all_unwrap (fun v _ => ?_)
    exact reportErr_all (retains_handle env s p cid v) (fun _ h => h) (fun t h => h.trans (.sent (sent_error t cid _)))
  | binary b =>
    exact reportErr_all (retains_binary env s p b) (fun _ h => h) (fun t h => h.trans (.sent (sent_error t cid _)))
  | ping _ => exact .refl s
  | pong _ => exact .refl s

theorem retains_runDelayed (env : Env) : ∀ (ds : List Delayed) (s : Server), (runDelayed env ds s).All s.Retains
  | [], s => .refl s
  | d :: ds, s => by
    unfold runDelayed
    split
    · have hqueue : s.Retains { s with delayed := s.delayed ++ [d] } := .same rfl rfl rfl (fun _ h => h)
      exact (retains_runDelayed env ds { s with delayed := s.delayed ++ [d] }).mono (fun t ht => hqueue.trans ht)
    · split
      · exact retains_runDelayed env ds s
      · rename_i c _
        dsimp only
        have hset : s.Retains (s.setConnection d.cid (unqueue d c)) := .same rfl rfl rfl (fun _ h => h)
        split
        · refine Out.all_andThen ((retains_dispatch env _ d.cid d.frame none).mono (fun t ht => hset.trans ht))
            (fun t ht => ?_) (fun _ h => h)
          exact (retains_runDelayed env ds t).mono (fun u hu => Retains.trans ht hu)
        · exact (retains_runDelayed env ds _).mono (fun t ht => hset.trans ht)

theorem retains_keepEmpty (env : Env) : ∀ (ids : List String) (s : Server), (keepEmpty env ids s).All s.Retains
  | [], s => .refl s
  | id :: ids, s => by
    unfold keepEmpty
    refine Out.all_unwrap (fun r _ => (retains_keepEmpty env ids _).mono (fun t ht => Retains.trans ?_ ht))
    exact Retains.trans (t := s.removeRoom id) (.same rfl rfl rfl (fun _ h => h)) (retains_keep env _ r)

theorem retains_sweepConnections (env : Env) : ∀ (cids : List Nat) (s : Server) (heartbeat : Bool),
    (sweepConnections env cids s heartbeat).All (fun x => s.Retains x.1)
  | [], s, _ => .refl s
  | cid :: cids, s, heartbeat => by
    unfold sweepConnections
    refine Out.all_unwrap (fun c _ => (retains_sweepConnections env cids _ _).mono (fun x hx => Retains.trans ?_ hx))
    unfold sweepConnection
    dsimp only
    repeat' split
    · exact .sent (sent_close s cid _ _)
    · exact .refl s
    · exact .sent (sent_close s cid _ _)
    · refine Retains.trans ?_ (.sent (sent_sendC _ cid _))
      exact .same rfl rfl rfl (fun _ h => h)
    · exact .same rfl rfl rfl (fun _ h => h)
    · exact .refl s

/-- **A sweep keeps tenures until it ends with an expiry.** -/
theorem retains_sweep {env : Env} {s t : Server} (h : (s.sweep env).state = some t) :
    ∃ u, s.Retains u ∧ t = u.expire env.now := by
  obtain ⟨⟨u, hrun⟩, -⟩ := sweep_queue h
  have hqueue : s.Retains { s with delayed := [] } := .same rfl rfl rfl (fun _ h => h)
  have hu : s.Retains u := hqueue.trans (Out.all_of_state (retains_runDelayed env s.delayed _) (by rw [hrun]; rfl))
  unfold sweep at h
  rw [hrun] at h
  dsimp only [Out.andThen] at h
  have hrooms : (u.sweepRooms env).All u.Retains := by
    unfold sweepRooms
    dsimp only
    refine (retains_keepEmpty env _ _).mono (fun v hv => Retains.trans ?_ hv)
    exact .same rfl rfl rfl (fun _ h => h)
  cases hv : u.sweepRooms env with
  | halt x => rw [hv] at h; cases h
  | err v => exact absurd hv (keepEmpty_ne_err env _ _)
  | ok v =>
  rw [hv] at h hrooms
  dsimp only at h
  have hconn := retains_sweepConnections env v.connections.keys v false
  cases hw : sweepConnections env v.connections.keys v false with
  | halt x => rw [hw] at h; cases h
  | err x => exact absurd hw (sweepConnections_ne_err env _ _ _)
  | ok x =>
  obtain ⟨w, heartbeat⟩ := x
  rw [hw] at h hconn
  cases h
  refine ⟨_, ?_, rfl⟩
  split
  · exact (hu.trans (Retains.trans hrooms hconn)).trans (.sent (Sent.foldl (fun s r => sent_broadcast s r _ none none) _ w))
  · exact hu.trans (Retains.trans hrooms hconn)

end Server
end Relay
