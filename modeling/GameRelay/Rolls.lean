import GameRelay.Deliver
import GameRelay.Steps
/-!
# Rolls — accounts in memory and on file

`Roll` is what the relay holds of its accounts: who is in memory, what the account files say, and the pushes queued for
devices.  `Roll.Moves` are the ways it changes, one constructor each; only a registration touches an account other than
the one that acts.
-/
namespace Relay

open Function (update)

/-- One registration of an account. -/
structure Device where
  id : String
  token : Value
  language : Value

/-- What an account keeps when it leaves memory. -/
structure Profile where
  id : String
  name : String
  password : String
  devices : List Device

def deviceOf (e : String × Value) : Device := ⟨e.1, e.2.idx "token", e.2.idx "language"⟩

def Player.profile (p : Player) : Profile := ⟨p.id, p.name, p.password, p.devices.entries.map deviceOf⟩

/-- What an account file says; without an identifier it names nobody. -/
def fileProfile (v : Value) : Profile := (Store.accountPlayer v "" 0).profile

structure Roll where
  enabled : Bool
  memory : String → Option Profile
  files : String → Option Profile
  queued : List LegacyPush

def Core.roll (s : Core) : Roll where
  enabled := s.store.enabled
  memory := fun id => (s.players.get id).map Player.profile
  files := fun k => (s.store.accounts.get k).bind (Option.map fileProfile)
  queued := s.legacyPushes

/-! An account file gives back the account. -/

theorem accountDevices_entries : ∀ (l : List (String × Value)) (m : IndexMap String Value),
    (m.keys ++ l.map Prod.fst).Nodup → (Store.accountDevices (l.map Store.deviceFile) m).entries =
      m.entries ++ l.map (fun e => (e.1, e.2.set "foreground" (.bool false)))
  | [], m, _ => (List.append_nil _).symm
  | (k, v) :: l, m, hn => by
    have hk : k ∉ m.keys := fun h => (List.nodup_append.1 hn).2.2 k h k (List.mem_cons_self ..) rfl
    have hentries : (m.insert k (v.set "foreground" (.bool false))).entries = m.entries ++ [(k, v.set "foreground" (.bool false))] :=
      IndexMap.insertList_fresh hk
    have hkeys : (m.insert k (v.set "foreground" (.bool false))).keys = m.keys ++ [k] := by
      show (m.insert k _).entries.map Prod.fst = m.entries.map Prod.fst ++ [k]
      rw [hentries, List.map_append]
      rfl
    show (Store.accountDevices (l.map Store.deviceFile) (m.insert k (v.set "foreground" (.bool false)))).entries = _
    rw [accountDevices_entries l _ (by rw [hkeys, List.append_assoc]; exact hn), hentries, List.append_assoc]
    rfl

/-- **What was saved is what is read.** -/
theorem fileProfile_accountFile (p : Player) : fileProfile (Store.accountFile p) = p.profile := by
  have hdev : (Store.accountDevices (p.devices.entries.map Store.deviceFile) IndexMap.empty).entries =
      p.devices.entries.map (fun e => (e.1, e.2.set "foreground" (.bool false))) := by
    rw [accountDevices_entries _ _ (by exact p.devices.nodup)]
    rfl
  show Profile.mk p.id p.name p.password ((Store.accountDevices (p.devices.entries.map Store.deviceFile)
    IndexMap.empty).entries.map deviceOf) = _
  rw [hdev, List.map_map]
  refine congrArg (Profile.mk p.id p.name p.password) (List.map_congr_left (fun e _ => ?_))
  show Device.mk e.1 _ _ = Device.mk e.1 _ _
  rw [Value.idx_set_ne (by decide), Value.idx_set_ne (by decide)]


/-! How the roll changes. -/

namespace Roll

/-- Nobody in memory has this token any more. -/
def claim (r : Roll) (token : Value) : Roll :=
  { r with memory := fun id => (r.memory id).map (fun x =>
      { x with devices := x.devices.filter (fun d => decide (d.token ≠ token)) }) }

/-- An account in memory, and its file. -/
def write (r : Roll) (id : String) (x : Profile) : Roll :=
  { r with memory := update r.memory id (some x), files := update r.files id (some x) }

end Roll

/-- A registration: the account, its device, the token. -/
structure Registration where
  player : String
  device : String
  token : Value

/-- What a message of `p` registers. -/
def registration (push : Bool) (p : String) (v : Value) : Option Registration :=
  if push && decide (v.idx "method" = .str "setPushDevice") && !((v.idx "data").idx "token").isNull then
    ((v.idx "data").idx "deviceId").asStr.map (fun device => ⟨p, device, (v.idx "data").idx "token"⟩)
  else none

inductive Roll.Moves : Option Registration → Roll → Roll → Prop
  | same (r : Roll) : Moves none r r
  | expired {r : Roll} (id : String) : Moves none r { r with memory := update r.memory id none }
  | opened {r : Roll} {id : String} {x : Profile} (hid : x.id = id) (hu : isUuid id = true) (hl : lowerText id = id)
      (hd : x.devices = []) : Moves none r (r.write id x)
  | wrote {r : Roll} {id : String} {x x' : Profile} (h : r.memory id = some x ∨ r.files id = some x) (hid : x'.id = id)
      (hd : x'.devices.Sublist x.devices) : Moves none r (r.write id x')
  | pushed {r : Roll} {jobs : List LegacyPush} (h : ∀ j ∈ jobs, ∃ x d, r.memory j.player = some x ∧ d ∈ x.devices ∧
      d.id = j.device ∧ d.token = .str j.token) : Moves none r { r with queued := r.queued ++ jobs }
  | registered {r : Roll} {g : Registration} {x x' : Profile} (hp : r.memory g.player = some x) (hid : x'.id = g.player)
      (hd : ∀ d ∈ x'.devices, (d ∈ x.devices ∧ d.token ≠ g.token) ∨ (d.id = g.device ∧ d.token = g.token)) :
      Moves (some g) r ((r.claim g.token).write g.player x')

/-- Accounts and account files lie under their own identifiers, which are in lower case. -/
structure Roll.Proper (r : Roll) : Prop where
  enabled : r.enabled = true
  memory : ∀ {id x}, r.memory id = some x → x.id = id ∧ isUuid id = true ∧ lowerText id = id
  files : ∀ {k x}, r.files k = some x → x.id = k ∧ isUuid k = true ∧ lowerText k = k

namespace Roll.Proper

theorem write {r : Roll} (h : r.Proper) {id : String} {x : Profile} (hid : x.id = id) (hu : isUuid id = true)
    (hl : lowerText id = id) : (r.write id x).Proper := by
  refine ⟨h.enabled, fun hx => ?_, fun hx => ?_⟩
  · rcases update_some hx with ⟨rfl, he⟩ | ⟨-, he⟩
    · cases he; exact ⟨hid, hu, hl⟩
    · exact h.memory he
  · rcases update_some hx with ⟨rfl, he⟩ | ⟨-, he⟩
    · cases he; exact ⟨hid, hu, hl⟩
    · exact h.files he

theorem move {a : Option Registration} {r r' : Roll} (h : r.Proper) (hm : Roll.Moves a r r') : r'.Proper := by
  cases hm with
  | same => exact h
  | expired id =>
    refine ⟨h.enabled, fun hx => ?_, h.files⟩
    rcases update_some hx with ⟨-, he⟩ | ⟨-, he⟩
    · cases he
    · exact h.memory he
  | opened hid hu hl hd => exact h.write hid hu hl
  | wrote hx hid hd =>
    rcases hx with hx | hx
    · exact h.write hid (h.memory hx).2.1 (h.memory hx).2.2
    · exact h.write hid (h.files hx).2.1 (h.files hx).2.2
  | pushed hj => exact ⟨h.enabled, h.memory, h.files⟩
  | registered hp hid hd =>
    rename_i g x x'
    refine write (r := r.claim g.token) ⟨h.enabled, fun hx => ?_, h.files⟩ hid (h.memory hp).2.1 (h.memory hp).2.2
    obtain ⟨x, hx', rfl⟩ := Option.map_eq_some_iff.1 hx
    exact h.memory (x := x) hx'

end Roll.Proper

/-! What leaves the roll as it is. -/

variable [Extern]

namespace Server

omit [Extern] in
theorem roll_core {s t : Server} (h : t.toCore = s.toCore) : t.roll = s.roll := congrArg Core.roll h

omit [Extern] in
theorem Sent.roll {s t : Server} (h : Sent s t) : t.roll = s.roll := roll_core h.1

omit [Extern] in
theorem roll_store {s : Server} {st : Store} (ha : st.accounts = s.store.accounts) (he : st.enabled = s.store.enabled) :
    ({ s with store := st } : Server).roll = s.roll := by
  show Roll.mk st.enabled _ (fun k => (st.accounts.get k).bind _) _ = _
  rw [ha, he]
  rfl

omit [Extern] in
theorem roll_setPlayer (s : Server) (id : String) (p : Player) :
    (s.setPlayer id p).roll = { s.roll with memory := update s.roll.memory id (some p.profile) } := by
  refine congrArg (fun m => Roll.mk s.store.enabled m s.roll.files s.legacyPushes) (funext (fun x => ?_))
  show ((s.players.insert id p).get x).map Player.profile = update s.roll.memory id (some p.profile) x
  rw [IndexMap.get_insert, Function.update_apply]
  split <;> rfl

omit [Extern] in
theorem memory_eq {s : Server} {id : String} {p : Player} (h : s.players.get id = some p) :
    s.roll.memory id = some p.profile := by
  show (s.players.get id).map Player.profile = _
  rw [h]
  rfl

omit [Extern] in
theorem roll_setPlayer_same {s : Server} {id : String} {p p' : Player} (h : s.players.get id = some p)
    (hp : p'.profile = p.profile) : (s.setPlayer id p').roll = s.roll := by
  rw [roll_setPlayer, hp, ← memory_eq h, Function.update_eq_self]

omit [Extern] in
theorem roll_mapVals {s : Server} {f : String → Player → Player} (hf : ∀ id p, (f id p).profile = p.profile) :
    ({ s with players := s.players.mapVals f } : Server).roll = s.roll := by
  refine congrArg (fun m => Roll.mk s.store.enabled m s.roll.files s.legacyPushes) (funext (fun x => ?_))
  show ((s.players.mapVals f).get x).map Player.profile = (s.players.get x).map Player.profile
  rw [IndexMap.get_mapVals, Option.map_map]
  exact congrArg (fun g => (s.players.get x).map g) (funext (hf x))

omit [Extern] in
theorem roll_releaseMembers : ∀ (ids : List String) (s : Server), (s.releaseMembers ids).roll = s.roll
  | [], _ => rfl
  | id :: ids, s => by
    show (releaseMembers _ ids).roll = s.roll
    rw [roll_releaseMembers ids]
    refine roll_mapVals (fun k p => ?_)
    split <;> rfl

theorem roll_keep (env : Env) (s : Server) (r : Room) : (s.keep env r).roll = s.roll := by
  unfold keep
  split
  · split
    · rename_i st hst
      obtain ⟨-, ha, he, -⟩ := Store.save_spec hst
      obtain ⟨ids, -, hp⟩ := Store.prune_spec env.io st s.rooms.keys env.now
      have hroll : (({ s with store := (st.prune env.io s.rooms.keys env.now).store } : Server).record
          ((st.prune env.io s.rooms.keys env.now).gone.map .evicted)).roll = s.roll :=
        roll_store (hp.accounts.trans ha) (hp.enabled.trans he)
      dsimp only
      split
      · exact (Sent.foldl (fun s _ => sent_lobby s _) _ _).roll.trans hroll
      · exact hroll
    · rename_i st hst
      obtain ⟨-, ha, he, -⟩ := Store.save_spec hst
      exact roll_store ha he
  · rfl

/-- **Leaving a room changes nothing an account keeps.** -/
theorem leave_roll (env : Env) (s : Server) (p : String) (d : Bool) : (s.leave env p d).All (fun t => t.roll = s.roll) := by
  unfold leave
  refine Out.all_unwrap (fun player hp => ?_)
  have h₀ : (s.setPlayer p (releasePlayer player)).roll = s.roll := roll_setPlayer_same hp rfl
  have h₁ : (if d then s.setPlayer p (releasePlayer player)
      else (s.setPlayer p (releasePlayer player)).dropReservations p).roll = s.roll := by
    split
    · exact h₀
    · exact h₀
  dsimp only
  generalize (if d then s.setPlayer p (releasePlayer player)
      else (s.setPlayer p (releasePlayer player)).dropReservations p) = s₁ at h₁ ⊢
  split
  · exact h₁
  split
  · exact h₁
  rename_i id _ _ r _
  generalize departed r p d = r₁
  generalize htold : (s₁.removeRoom id).broadcast r₁ _ none none = s₂
  have h₂ : s₂.roll = s.roll := by
    rw [← htold]
    exact (sent_broadcast (s₁.removeRoom id) r₁ _ none none).roll.trans h₁
  generalize hlost : (if ownerLost r₁ p then s₂.releaseMembers r₁.active.items else s₂) = s₃
  have h₃ : s₃.roll = s.roll := by
    rw [← hlost]
    split
    · rw [roll_releaseMembers]; exact h₂
    · exact h₂
  generalize (if ownerLost r₁ p then ({ r₁ with active := IndexSet.empty } : Room) else r₁) = r₂
  refine Out.all_ite (fun _ => Out.all_ite (fun _ => ?_) (fun _ => ?_)) (fun _ => Out.all_unwrap (fun first _ => ?_))
  · exact (roll_keep env s₃ r₂).trans h₃
  · exact (sent_lobby s₃ _).roll.trans h₃
  · refine (sent_offerSeats _ _).roll.trans ?_
    split
    · exact (sent_broadcast _ _ _ none none).roll.trans h₃
    · exact h₃

theorem seatIn_roll (env : Env) {s : Server} {p : String} {player : Player} (hp : s.players.get p = some player)
    (id : String) (loaded : Option Room) (r : Room) : (s.seatIn env p id player loaded r).roll = s.roll := by
  unfold seatIn
  dsimp only
  refine (sent_send _ p _).roll.trans ((sent_broadcast _ _ _ _ _).roll.trans ?_)
  exact roll_setPlayer_same (s := (s.record _).setRoom id _) (p := player) hp rfl

theorem enter_roll (env : Env) (s : Server) (p id : String) (pw : Value) :
    (s.enter env p id pw).All (fun t => t.roll = s.roll) := by
  refine enter_all rfl (fun t code ht => (sent_err t p code).roll.trans ht) (fun _ => rfl) (fun _ ht => ht)
    (fun t player loaded r hp hpl ht => ?_)
  exact (seatIn_roll env (by rw [hpl]; exact hp) id loaded r).trans ht

/-! Room methods. -/

theorem beginSession_roll (env : Env) (s : Server) (p : String) (r : Room) (d : Value) :
    (s.beginSession env p r d).All (fun sr => sr.1.roll = s.roll) := by
  unfold beginSession
  dsimp only
  refine Out.all_ite (fun _ => (sent_errorReply s p _ _).roll) (fun _ => Out.all_unwrap (fun size _ => ?_))
  refine Out.all_ite (fun _ => (sent_errorReply s p _ _).roll) (fun _ => Out.all_unwrap (fun id _ => ?_))
  exact (sent_reply (s.record _) p _ _).roll

theorem commitSession_roll (env : Env) (s : Server) (p : String) (r : Room) (d : Value) :
    (s.commitSession env p r d).All (fun sr => sr.1.roll = s.roll) := by
  unfold commitSession
  dsimp only
  split
  · exact (sent_errorReply s p _ _).roll
  refine Out.all_unwrap (fun a _ => Out.all_unwrap (fun outsider _ => ?_))
  refine Out.all_ite (fun _ => (sent_errorReply s p _ _).roll) (fun _ => ?_)
  have hroll : ∀ {st ok}, s.store.commit env.io r (d.idx "scheduled") (d.idx "immediate") = (st, ok) →
      ({ s with store := st } : Server).roll = s.roll := fun h => by
    have hf := Store.setJobs_files env.io s.store r.id (Store.commitJobs r.events ((s.store.jobs.get r.id).getD [])
      (d.idx "scheduled") (d.idx "immediate"))
    rw [show Store.setJobs env.io s.store r.id _ = _ from h] at hf
    exact roll_store hf.2.1 hf.2.2
  split
  · rename_i st hst
    exact (sent_errorReply _ p _ _).roll.trans (hroll hst)
  · rename_i st hst
    refine ((sent_reply _ p _ _).trans (sent_broadcast _ _ _ _ _)).roll.trans ?_
    exact hroll hst

theorem session_roll (env : Env) (s : Server) (p : String) (r : Room) (m : String) (d : Value) :
    (s.session env p r m d).All (fun sr => sr.1.roll = s.roll) := by
  unfold session
  dsimp only
  refine Out.all_ite (fun _ => (sent_errorReply s p _ _).roll) (fun _ => ?_)
  refine Out.all_ite (fun _ => (sent_reply s p _ _).roll) (fun _ => ?_)
  refine Out.all_ite (fun _ => ?_) (fun _ => ?_)
  · unfold getSessionChunk
    refine Out.all_unwrap (fun off _ => Out.all_ite (fun _ => (sent_errorReply s p _ _).roll) (fun _ => ?_))
    exact Out.all_unwrap (fun id _ => (sent_bytes s p _).roll)
  refine Out.all_ite (fun _ => (sent_errorReply s p _ _).roll) (fun _ => ?_)
  exact Out.all_ite (fun _ => beginSession_roll env s p r d) (fun _ => commitSession_roll env s p r d)

theorem ownerOnly_all {s : Server} {p : String} {r : Room} {k : Out (Server × Room)} {P : Server → Prop}
    (hs : P (s.err p "not_room_owner")) (hk : k.All (fun sr => P sr.1)) : (s.ownerOnly p r k).All (fun sr => P sr.1) := by
  unfold ownerOnly
  exact Out.all_ite (fun _ => hs) (fun _ => hk)

theorem updateRoom_roll (s : Server) (p : String) (r : Room) (d : Value) :
    (s.updateRoom p r d).All (fun sr => sr.1.roll = s.roll) := by
  unfold updateRoom
  refine ownerOnly_all (P := fun t => t.roll = s.roll) (sent_err s p _).roll ?_
  dsimp only
  refine Out.all_ite (fun _ => (sent_err s p _).roll) (fun _ => ?_)
  refine Out.all_ite (fun _ => (sent_err s p _).roll) (fun _ => ?_)
  refine Out.all_ite (fun _ => (sent_err s p _).roll) (fun _ => ?_)
  exact ((sent_broadcast s _ _ none none).trans (sent_lobby _ _)).roll

theorem startGame_roll (env : Env) (s : Server) (p : String) (r : Room) (d : Value) :
    (s.startGame env p r d).All (fun sr => sr.1.roll = s.roll) := by
  unfold startGame
  refine ownerOnly_all (P := fun t => t.roll = s.roll) (sent_err s p _).roll ?_
  refine Out.all_ite (fun _ => (sent_err s p _).roll) (fun _ => ?_)
  have hrel := sent_relay s p (gameStarted d)
  split
  · rename_i s' hr
    rw [hr] at hrel
    exact hrel.roll
  · rename_i s' out hr
    rw [hr] at hrel
    exact ((sent_broadcastFrame _ _ _ none none).trans (sent_lobby _ _)).roll.trans hrel.roll

theorem setRoomMeta_roll (s : Server) (p : String) (r : Room) (d : Value) :
    (s.setRoomMeta p r d).All (fun sr => sr.1.roll = s.roll) := by
  unfold setRoomMeta
  refine ownerOnly_all (P := fun t => t.roll = s.roll) (sent_err s p _).roll ?_
  refine Out.all_ite (fun _ => (sent_err s p _).roll) (fun _ => ?_)
  have hrel := sent_relay s p (onSetRoomMeta d)
  split
  · rename_i s' out hr
    rw [hr] at hrel
    exact (hrel.trans (sent_broadcastFrame _ _ _ none none)).roll
  · rename_i s' hr
    rw [hr] at hrel
    exact hrel.roll

omit [Extern] in
/-- The pushes queued are for registered devices. -/
theorem pushDevices_roll (notice : Value) (room event id : String) (online : Bool) {x : Profile} :
    ∀ (ds : List (String × Value)) (s : Server), (∀ e ∈ ds, deviceOf e ∈ x.devices) →
      (pushDevices notice room event id online ds s).All (fun t => ∃ jobs, t.roll = { s.roll with queued := s.roll.queued ++ jobs } ∧
        ∀ j ∈ jobs, j.player = id ∧ ∃ d ∈ x.devices, d.id = j.device ∧ d.token = .str j.token)
  | [], s, _ => ⟨[], by rw [List.append_nil], fun _ h => nomatch h⟩
  | (device, d) :: ds, s, h => by
    have hds : ∀ e ∈ ds, deviceOf e ∈ x.devices := fun e he => h e (List.mem_cons_of_mem _ he)
    unfold pushDevices
    refine Out.all_ite (fun _ => pushDevices_roll notice room event id online ds s hds) (fun _ => ?_)
    refine Out.all_unwrap (fun token ht => ?_)
    generalize hjob : ({ player := id, device := device, token := token, notice := _ } : LegacyPush) = job
    have hown : job.player = id ∧ job.device = device ∧ job.token = token := by rw [← hjob]; exact ⟨rfl, rfl, rfl⟩
    refine (pushDevices_roll notice room event id online ds _ hds).mono (fun t hjobs => ?_)
    obtain ⟨jobs, hroll, hj⟩ := hjobs
    refine ⟨job :: jobs, hroll.trans ?_, fun j hj' => ?_⟩
    · show Roll.mk _ _ _ (_ ++ [job] ++ jobs) = Roll.mk _ _ _ (_ ++ job :: jobs)
      rw [List.append_assoc]
      rfl
    · rcases List.mem_cons.1 hj' with rfl | hj'
      · refine ⟨hown.1, deviceOf (device, d), h _ (List.mem_cons_self ..), hown.2.1.symm, ?_⟩
        rw [hown.2.2]
        exact Value.asStr_eq_some.1 ht
      · exact hj j hj'

omit [Extern] in
theorem pushTargets_roll (notice : Value) (room event p : String) {m : String → Option Profile} :
    ∀ (vs : List Value) (s : Server), s.roll.memory = m →
      (pushTargets notice room event p vs s).All (fun t => ∃ jobs, t.roll = { s.roll with queued := s.roll.queued ++ jobs } ∧
        ∀ j ∈ jobs, ∃ x d, m j.player = some x ∧ d ∈ x.devices ∧ d.id = j.device ∧ d.token = .str j.token)
  | [], s, _ => ⟨[], by rw [List.append_nil], fun _ h => nomatch h⟩
  | v :: vs, s, hm => by
    unfold pushTargets
    refine Out.all_unwrap (fun id _ => ?_)
    refine Out.all_ite (fun _ => pushTargets_roll notice room event p vs s hm) (fun _ => ?_)
    split
    · exact pushTargets_roll notice room event p vs s hm
    rename_i a ha
    have hdev := pushDevices_roll notice room event id a.connection.isSome (x := a.profile) a.devices.entries s
      (fun e he => List.mem_map_of_mem he)
    have hmem : m id = some a.profile := by rw [← hm]; exact memory_eq ha
    refine Out.all_andThen hdev (fun t ht => ?_) (fun t ht => ?_)
    · obtain ⟨jobs, hroll, hj⟩ := ht
      refine (pushTargets_roll notice room event p (m := m) vs t (by rw [hroll]; exact hm)).mono (fun u hu => ?_)
      obtain ⟨jobs', hroll', hj'⟩ := hu
      refine ⟨jobs ++ jobs', ?_, fun j hjj => ?_⟩
      · rw [hroll', hroll]
        show Roll.mk _ _ _ (_ ++ jobs ++ jobs') = Roll.mk _ _ _ (_ ++ (jobs ++ jobs'))
        rw [List.append_assoc]
      · rcases List.mem_append.1 hjj with hjj | hjj
        · obtain ⟨hp, d, hd, h⟩ := hj j hjj
          exact ⟨_, d, by rw [hp]; exact hmem, hd, h⟩
        · exact hj' j hjj
    · obtain ⟨jobs, hroll, hj⟩ := ht
      refine ⟨jobs, hroll, fun j hjj => ?_⟩
      obtain ⟨hp, d, hd, h⟩ := hj j hjj
      exact ⟨_, d, by rw [hp]; exact hmem, hd, h⟩

theorem notifyPlayers_moves (env : Env) (s : Server) (p : String) (r : Room) (d : Value) :
    (s.notifyPlayers env p r d).All (fun sr => Roll.Moves none s.roll sr.1.roll) := by
  have same : ∀ {t : Server}, Sent s t → Roll.Moves none s.roll t.roll := fun h => by rw [h.roll]; exact .same _
  unfold notifyPlayers
  refine Out.all_ite (fun _ => same (sent_err s p _)) (fun _ => ?_)
  refine ownerOnly_all (P := fun t => Roll.Moves none s.roll t.roll) (same (sent_err s p _)) ?_
  refine Out.all_unwrap (fun outsider _ => Out.all_ite (fun _ => same (sent_err s p _)) (fun _ => ?_))
  refine Out.all_unwrap (fun targets _ => Out.all_unwrap (fun event _ => ?_))
  refine Out.all_ite (fun _ => .same _) (fun _ => Out.all_ite (fun _ => same (sent_err s p _)) (fun _ => ?_))
  refine all_mapOut (pushTargets_roll d r.id event p targets s rfl) (fun t ht => ?_)
  obtain ⟨jobs, hroll, hj⟩ := ht
  show Roll.Moves none s.roll t.roll
  rw [hroll]
  exact .pushed hj

theorem roomMessage_moves (env : Env) (s : Server) (p : String) (r : Room) (m : String) (d : Value) :
    (s.roomMessage env p r m d).All (fun sr => Roll.Moves none s.roll sr.1.roll) := by
  have same : ∀ {t : Server}, t.roll = s.roll → Roll.Moves none s.roll t.roll := fun h => by rw [h]; exact .same _
  unfold roomMessage
  refine Out.all_ite (fun _ => (session_roll env s p r m d).mono (fun _ h => same h)) (fun _ => ?_)
  refine Out.all_ite (fun _ => notifyPlayers_moves env s p r d) (fun _ => ?_)
  refine Out.all_ite (fun _ => (updateRoom_roll s p r d).mono (fun _ h => same h)) (fun _ => ?_)
  refine Out.all_ite (fun _ => same (sent_relayTo s p r _ none none).roll) (fun _ => ?_)
  refine Out.all_ite (fun _ => same (sent_relayTo s p r _ (some p) none).roll) (fun _ => ?_)
  refine Out.all_ite (fun _ => same (sent_relayTo s p r _ none _).roll) (fun _ => ?_)
  refine Out.all_ite (fun _ => ?_) (fun _ => ?_)
  · unfold requestGameState
    refine Out.all_ite (fun _ => Out.all_unwrap (fun a _ => same (sent_send s _ _).roll)) (fun _ => .same _)
  refine Out.all_ite (fun _ => (startGame_roll env s p r d).mono (fun _ h => same h)) (fun _ => ?_)
  refine Out.all_ite (fun _ => ?_) (fun _ => ?_)
  · unfold shareGameState
    exact ownerOnly_all (P := fun t => Roll.Moves none s.roll t.roll) (same (sent_err s p _).roll)
      (same (sent_relayTo s p r _ _ _).roll)
  · exact Out.all_ite (fun _ => (setRoomMeta_roll s p r d).mono (fun _ h => same h)) (fun _ => .same _)

theorem inRoom_moves (env : Env) (s : Server) (p m : String) (d : Value) :
    (s.inRoom env p m d).All (fun t => Roll.Moves none s.roll t.roll) := by
  have same : ∀ {t : Server}, Sent s t → Roll.Moves none s.roll t.roll := fun h => by rw [h.roll]; exact .same _
  unfold inRoom
  refine Out.all_unwrap (fun player _ => ?_)
  split
  · exact same (sent_err s p _)
  split
  · exact same (sent_err s p _)
  · exact all_mapOut (roomMessage_moves env (s.takeRoom _) p _ m d) (fun _ h => h)

theorem binary_roll (env : Env) (s : Server) (p : String) (b : Bytes) :
    (s.binary env p b).All (fun t => t.roll = s.roll) := by
  unfold binary
  refine Out.all_unwrap (fun player _ => ?_)
  split
  · rfl
  split
  · rfl
  rename_i id _ _ r _
  refine Out.all_ite (fun _ => ?_) (fun _ => Out.all_ite (fun _ => (sent_relayBytes s r p _ b).roll) (fun _ => ?_))
  · refine all_mapOut (P := fun sr => sr.1.roll = s.roll) ?_ (fun _ h => h)
    unfold upload
    refine Out.all_ite (fun _ => rfl) (fun _ => ?_)
    split
    · rfl
    refine Out.all_unwrap (fun bid _ => Out.all_ite (fun _ => ?_) (fun _ => ?_))
    · exact (sent_errorReply (s.takeRoom id) p _ _).roll
    · exact (sent_reply ((s.takeRoom id).record _) p _ _).roll
  · refine Out.all_ite (fun _ => (sent_err s p _).roll) (fun _ => Out.all_unwrap (fun sender _ => ?_))
    exact (sent_relayBytes s r p _ _).roll

/-! Accounts that are saved. -/

omit [Extern] in
/-- Where no write fails, an account is filed as it is. -/
theorem saveAccount_roll {env : Env} (hio : ∀ n, env.io n = true) {s : Server} {p : Player} {st : Store} {ok : Bool}
    (he : s.store.enabled = true) (hu : isUuid p.id = true) (hl : lowerText p.id = p.id)
    (h : s.store.saveAccount env.io p = (st, ok)) : ok = true ∧
      ({ s with store := st } : Server).roll = { s.roll with files := update s.roll.files p.id (some p.profile) } := by
  unfold Store.saveAccount at h
  rw [if_neg (by rw [he]; decide), if_neg (by rw [hu]; decide), if_pos (hio _), hl] at h
  cases h
  refine ⟨rfl, congrArg (fun f => Roll.mk s.store.enabled s.roll.memory f s.legacyPushes) (funext (fun k => ?_))⟩
  show ((s.store.accounts.insert p.id (some (Store.accountFile p))).get k).bind (Option.map fileProfile) = _
  rw [IndexMap.get_insert, Function.update_apply]
  split
  · exact congrArg some (fileProfile_accountFile p)
  · rfl

omit [Extern] in
/-- An account put in memory and filed. -/
theorem write_roll {env : Env} (hio : ∀ n, env.io n = true) {s t : Server} {p : Player} {st : Store} {ok : Bool}
    (he : s.store.enabled = true) (hu : isUuid p.id = true) (hl : lowerText p.id = p.id)
    (ht : t.roll = (s.setPlayer p.id p).roll) (h : t.store.saveAccount env.io p = (st, ok)) :
    ok = true ∧ ({ t with store := st } : Server).roll = s.roll.write p.id p.profile := by
  have het : t.store.enabled = true := (congrArg Roll.enabled ht).trans he
  obtain ⟨hok, hroll⟩ := saveAccount_roll hio het hu hl h
  refine ⟨hok, hroll.trans ?_⟩
  rw [ht, roll_setPlayer]
  rfl

omit [Extern] in
/-- An account file in the store is the one the roll has. -/
theorem account_roll {s : Server} (hp : s.roll.Proper) {key : String} {now : Nat} {p : Player}
    (h : s.store.account key now = .ok (some p)) : p.id = lowerText key ∧ s.roll.files p.id = some p.profile := by
  unfold Store.account at h
  split at h
  · cases h
  split at h
  · cases h
  split at h
  · cases h
  · cases h
  rename_i v hv
  cases h
  have hfile : s.roll.files (lowerText key) = some (fileProfile v) := by
    show (s.store.accounts.get (lowerText key)).bind (Option.map fileProfile) = _
    rw [hv]
    rfl
  obtain ⟨hid, hu, -⟩ := hp.files hfile
  -- a file that names nobody is not a proper one
  have hprofile : (Store.accountPlayer v key now).profile = fileProfile v := by
    have hname : (fileProfile v).id = ((v.idx "id").asStr).getD "" := rfl
    cases hstr : (v.idx "id").asStr with
    | none =>
      rw [← hid, hname, hstr] at hu
      exact absurd hu (by decide)
    | some id =>
      show Profile.mk (((v.idx "id").asStr).getD key) _ _ _ = Profile.mk (((v.idx "id").asStr).getD "") _ _ _
      rw [hstr]
      rfl
  have hkey : (Store.accountPlayer v key now).id = lowerText key := (congrArg Profile.id hprofile).trans hid
  refine ⟨hkey, ?_⟩
  rw [hkey, hprofile]
  exact hfile

theorem changeName_moves {env : Env} (hio : ∀ n, env.io n = true) {s : Server} (hp : s.roll.Proper) (p : String)
    (d : Value) : (s.changeName env p d).All (fun t => Roll.Moves none s.roll t.roll) := by
  unfold changeName
  refine Out.all_unwrap (fun player hpl => Out.all_unwrap (fun name _ => ?_))
  obtain ⟨hid, hu, hl⟩ := hp.memory (memory_eq hpl)
  change player.id = p at hid
  subst hid
  dsimp only
  split
  · rename_i st hst
    exact absurd (write_roll hio (s := s) (p := { player with name := name }) hp.enabled hu hl rfl hst).1 (by decide)
  · rename_i st hst
    have hroll := (write_roll hio (s := s) (p := { player with name := name }) hp.enabled hu hl rfl hst).2
    have hmove : Roll.Moves none s.roll (s.roll.write player.id ({ player with name := name } : Player).profile) :=
      .wrote (.inl (memory_eq hpl)) rfl (List.Sublist.refl _)
    rw [← hroll] at hmove
    split
    · exact hmove
    · show Roll.Moves none s.roll (Core.roll _)
      rw [(sent_broadcast _ _ _ none none).roll]
      exact hmove

omit [Extern] in
/-- What an account has registered once a device is. -/
theorem registerDevice_mem {p device : String} {a : Player} {d : Value} {x : Device}
    (h : x ∈ (registerDevice (claimToken p device (d.idx "token") a) device d).profile.devices) :
    (x ∈ a.profile.devices ∧ x.token ≠ d.idx "token") ∨ (x.id = device ∧ x.token = d.idx "token") := by
  obtain ⟨⟨k, w⟩, he, rfl⟩ := List.mem_map.1 h
  have hmem := (IndexMap.mem_insertList (IndexMap.nodup _)).1 he
  split at hmem
  · rename_i hk
    exact .inr ⟨hk, by rw [hmem]; rfl⟩
  · rename_i hk
    have hclaim : (k, w) ∈ (claimToken p device (d.idx "token") a).devices.entries := by
      split at hmem
      · exact List.mem_of_mem_tail hmem
      · exact hmem
    obtain ⟨hin, hcond⟩ := List.mem_filter.1 hclaim
    refine .inl ⟨List.mem_map_of_mem hin, ?_⟩
    show w.idx "token" ≠ d.idx "token"
    simpa [hk] using hcond

omit [Extern] in
/-- The token is gone from every account but the one that registers it. -/
theorem claimToken_roll {s : Server} (hp : s.roll.Proper) {p : String} (device : String) (token : Value) {a : Player}
    (f : Player → Player) (ha : s.players.get p = some a) :
    ({ s with players := (s.players.mapVals (fun _ a => claimToken p device token a)).modify p f } : Server).roll =
      { s.roll.claim token with
        memory := update (s.roll.claim token).memory p (some (f (claimToken p device token a)).profile) } := by
  refine congrArg (fun m => Roll.mk s.store.enabled m s.roll.files s.legacyPushes) (funext (fun x => ?_))
  show (((s.players.mapVals (fun _ a => claimToken p device token a)).modify p f).get x).map Player.profile = _
  rw [IndexMap.get_modify, IndexMap.get_mapVals, Function.update_apply]
  by_cases hx : x = p
  · rw [if_pos hx, if_pos hx, ha]
    rfl
  · rw [if_neg hx, if_neg hx, IndexMap.get_mapVals]
    show _ = ((s.players.get x).map Player.profile).map _
    cases hb : s.players.get x with
    | none => rfl
    | some b =>
      have hbx : b.id = x := (hp.memory (memory_eq hb)).1
      refine congrArg some (congrArg (Profile.mk b.id b.name b.password) ?_)
      show (b.devices.entries.filter _).map deviceOf = (b.devices.entries.map deviceOf).filter _
      rw [List.filter_map]
      refine congrArg (List.map deviceOf) (List.filter_congr (fun e _ => ?_))
      show (decide (e.2.idx "token" ≠ token) || (decide (b.id = p) && _)) = decide ((deviceOf e).token ≠ token)
      rw [hbx, decide_eq_false hx, Bool.false_and, Bool.or_false]
      rfl

omit [Extern] in
/-- A message under another method registers nothing. -/
theorem registration_none {push : Bool} {p m : String} {v : Value} (hm : (v.idx "method").asStr = some m)
    (h : m ≠ "setPushDevice") : registration push p v = none := by
  unfold registration
  rw [if_neg]
  rw [Value.asStr_eq_some.1 hm]
  simp [h]

theorem setPushDevice_moves {env : Env} (hio : ∀ n, env.io n = true) {s : Server} (hp : s.roll.Proper) (p : String)
    {v : Value} (hm : (v.idx "method").asStr = some "setPushDevice") :
    (s.setPushDevice env p (v.idx "data")).All (fun t => Roll.Moves (registration s.push p v) s.roll t.roll) := by
  have hmeth : decide (v.idx "method" = .str "setPushDevice") = true := decide_eq_true (Value.asStr_eq_some.1 hm)
  unfold setPushDevice
  generalize hd : v.idx "data" = d
  refine Out.all_ite (fun hpush => ?_) (fun hpush => ?_)
  · have hnone : registration s.push p v = none := by
      unfold registration
      rw [if_neg]
      simp only [Bool.not_eq_true'] at hpush
      simp [hpush]
    rw [hnone]
    show Roll.Moves none s.roll (Core.roll _)
    rw [(sent_err s p _).roll]
    exact .same _
  refine Out.all_unwrap (fun device hdev => Out.all_unwrap (fun player hpl => ?_))
  obtain ⟨hid, hu, hl⟩ := hp.memory (memory_eq hpl)
  change player.id = p at hid
  subst hid
  dsimp only
  by_cases hn : (d.idx "token").isNull = true
  · -- the device gives its registration up
    have hnone : registration s.push player.id v = none := by
      unfold registration
      rw [hd, hn, if_neg]
      simp
    rw [hnone, if_pos hn]
    generalize hpl' : ({ player with devices := player.devices.shiftRemove device } : Player) = player'
    have hid' : player'.id = player.id := by rw [← hpl']
    have hsub : player'.profile.devices.Sublist player.profile.devices := by
      rw [← hpl']
      exact List.filter_sublist.map _
    refine Out.all_unwrap (fun a ha => ?_)
    have haa : a = player' := by
      change (s.players.insert player.id player').get player.id = some a at ha
      rw [IndexMap.get_insert_self] at ha
      exact (Option.some.inj ha).symm
    subst haa
    have hroll : ∀ {st ok}, (s.setPlayer player.id a).store.saveAccount env.io a = (st, ok) → ok = true ∧
        ({ s.setPlayer player.id a with store := st } : Server).roll = s.roll.write player.id a.profile := fun hst => by
      have h := write_roll hio (s := s) (t := s.setPlayer player.id a) (p := a) hp.enabled (by rw [hid']; exact hu)
        (by rw [hid']; exact hl) (by rw [hid']) hst
      rw [hid'] at h
      exact h
    split
    · rename_i st hst
      exact absurd (hroll hst).1 (by decide)
    · rename_i st hst
      show Roll.Moves none s.roll (Core.roll _)
      rw [(sent_send _ _ _).roll]
      show Roll.Moves none s.roll (Core.roll (Server.toCore { s.setPlayer player.id a with store := st }))
      rw [(hroll hst).2]
      exact .wrote (.inl (memory_eq hpl)) hid' hsub
  · -- it registers, and every other registration of the token ends
    have hsome : registration s.push player.id v = some ⟨player.id, device, d.idx "token"⟩ := by
      unfold registration
      rw [hd, hmeth, if_pos, hdev]
      · rfl
      · simp only [Bool.not_eq_true', Bool.not_eq_false] at hpush
        simp [hpush, hn]
    rw [hsome, if_neg hn]
    have hroll := claimToken_roll hp (p := player.id) device (d.idx "token")
      (fun a => registerDevice a device d) hpl
    generalize hx : (registerDevice (claimToken player.id device (d.idx "token") player) device d).profile = x at hroll
    generalize ({ s with players := _ } : Server) = s' at hroll ⊢
    refine Out.all_unwrap (fun a ha => ?_)
    have hax : a.profile = x := by
      have h : some a.profile = update (s.roll.claim (d.idx "token")).memory player.id (some x) player.id :=
        (memory_eq ha).symm.trans (congrArg (fun r => r.memory player.id) hroll)
      rw [Function.update_self] at h
      exact Option.some.inj h
    have hid' : a.id = player.id := (congrArg Profile.id hax).trans (by rw [← hx]; rfl)
    have hfiled : ∀ {st ok}, s'.store.saveAccount env.io a = (st, ok) → ok = true ∧
        ({ s' with store := st } : Server).roll = (s.roll.claim (d.idx "token")).write player.id x := fun hst => by
      obtain ⟨hok, h⟩ := saveAccount_roll hio ((congrArg Roll.enabled hroll).trans hp.enabled) (by rw [hid']; exact hu)
        (by rw [hid']; exact hl) hst
      refine ⟨hok, h.trans ?_⟩
      rw [hroll, hid', hax]
      rfl
    have hmove : Roll.Moves (some ⟨player.id, device, d.idx "token"⟩) s.roll
        ((s.roll.claim (d.idx "token")).write player.id x) :=
      .registered (memory_eq hpl) ((congrArg Profile.id hax).symm.trans hid')
        (fun y hy => registerDevice_mem (a := player) (by rw [hx]; exact hy))
    split
    · rename_i st hst
      exact absurd (hfiled hst).1 (by decide)
    · rename_i st hst
      show Roll.Moves _ s.roll (Core.roll _)
      rw [(sent_send _ _ _).roll, (hfiled hst).2]
      exact hmove

theorem openUdp_roll (env : Env) (s : Server) (cid : Nat) (p : String) :
    (s.openUdp env cid p).All (fun t => t.roll = s.roll) := by
  unfold openUdp
  refine Out.all_ite (fun _ => (sent_err s p _).roll) (fun _ => Out.all_unwrap (fun player _ => ?_))
  refine Out.all_ite (fun _ => (sent_err s p _).roll) (fun _ => Out.all_unwrap (fun c _ => ?_))
  exact (sent_sendC _ cid _).roll

omit [Extern] in
theorem pong_roll (env : Env) (s : Server) (cid : Nat) (p : String) (d : Value) :
    (s.pong env cid p d).All (fun t => t.roll = s.roll) := by
  unfold pong
  refine Out.all_unwrap (fun c _ => ?_)
  split
  · rfl
  · refine Out.all_ite (fun _ => Out.all_unwrap (fun player hp => ?_)) (fun _ => rfl)
    exact roll_setPlayer_same (s := s.setConnection cid _) (p := player) hp rfl

theorem getRooms_roll (s : Server) (p : String) (d : Value) : (s.getRooms p d).roll = s.roll := by
  unfold getRooms
  dsimp only
  split
  · exact (sent_err s p _).roll
  · exact (sent_send s p _).roll

theorem getSavedRooms_roll (env : Env) (p : String) : ∀ (ids : List Value) (s : Server),
    (getSavedRooms env p ids s).All (fun t => t.roll = s.roll)
  | [], _ => rfl
  | id :: ids, s => by
    unfold getSavedRooms
    refine Out.all_unwrap (fun key _ => ?_)
    split
    · rfl
    · exact (getSavedRooms_roll env p ids _).mono (fun t ht => ht.trans (sent_send s p _).roll)

theorem getPlayers_roll (env : Env) (s : Server) (p : String) (d : Value) :
    (s.getPlayers env p d).All (fun t => t.roll = s.roll) := by
  unfold getPlayers
  refine Out.all_unwrap (fun r _ => ?_)
  cases r with
  | error _ => rfl
  | ok selected => exact (sent_send s p _).roll

theorem getModerationTicket_roll (env : Env) (s : Server) (p : String) (d : Value) :
    (s.getModerationTicket env p d).All (fun t => t.roll = s.roll) := by
  unfold getModerationTicket
  refine Out.all_unwrap (fun target _ => Out.all_unwrap (fun room _ => ?_))
  exact Out.all_ite (fun _ => (sent_errorReply s p _ _).roll) (fun _ => (sent_reply s p _ _).roll)

theorem createRoom_roll (env : Env) (s : Server) (p : String) (d : Value) :
    (s.createRoom env p d).All (fun t => t.roll = s.roll) := by
  unfold createRoom drawId
  refine Out.all_unwrap (fun player _ => Out.all_ite (fun _ => (sent_err s p _).roll) (fun _ => ?_))
  refine Out.all_ite (fun _ => (sent_err s p _).roll) (fun _ => Out.all_unwrap (fun name _ => ?_))
  refine Out.all_unwrap (fun max _ => Out.all_ite (fun _ => trivial) (fun _ => ?_))
  dsimp only
  refine Out.all_ite (fun _ => (sent_err _ p _).roll) (fun _ => ?_)
  refine Out.all_andThen (enter_roll env _ p _ _) (fun t ht => ?_) (fun _ h => h)
  exact Out.all_unwrap (fun r _ => (sent_lobby t _).roll.trans ht)

/-- **A message is one move**, a registration where it is one. -/
theorem handle_moves {env : Env} (hio : ∀ n, env.io n = true) {s : Server} (hp : s.roll.Proper) (cid : Nat) (p : String)
    (v : Value) : (s.handle env cid p v).All (fun t => Roll.Moves (registration s.push p v) s.roll t.roll) := by
  have same : ∀ {t : Server}, t.roll = s.roll → Roll.Moves none s.roll t.roll := fun h => by rw [h]; exact .same _
  unfold handle
  refine Out.all_unwrap (fun m hm => ?_)
  by_cases hset : m = "setPushDevice"
  · subst hset
    simp only [if_neg (by decide : ¬ "setPushDevice" = "openUdp"), if_neg (by decide : ¬ "setPushDevice" = "closeUdp"),
      if_neg (by decide : ¬ "setPushDevice" = "Pong"), if_neg (by decide : ¬ "setPushDevice" = "getRooms"),
      if_neg (by decide : ¬ "setPushDevice" = "getSavedRooms"), if_neg (by decide : ¬ "setPushDevice" = "getPlayers"),
      if_neg (by decide : ¬ "setPushDevice" = "changeName"), if_neg (by decide : ¬ "setPushDevice" = "enterRoom"),
      if_neg (by decide : ¬ "setPushDevice" = "leaveRoom"), if_true]
    exact setPushDevice_moves hio hp p hm
  rw [registration_none hm hset]
  refine Out.all_ite (fun _ => (openUdp_roll env s cid p).mono (fun _ h => same h)) (fun _ => ?_)
  refine Out.all_ite (fun _ => ?_) (fun _ => ?_)
  · unfold closeUdp
    exact Out.all_unwrap (fun c _ => same (sent_sendC _ cid _).roll)
  refine Out.all_ite (fun _ => (pong_roll env s cid p _).mono (fun _ h => same h)) (fun _ => ?_)
  refine Out.all_ite (fun _ => same (getRooms_roll s p _)) (fun _ => ?_)
  refine Out.all_ite (fun _ => Out.all_unwrap (fun ids _ => ?_)) (fun _ => ?_)
  · exact (getSavedRooms_roll env p ids s).mono (fun _ h => same h)
  refine Out.all_ite (fun _ => (getPlayers_roll env s p _).mono (fun _ h => same h)) (fun _ => ?_)
  refine Out.all_ite (fun _ => changeName_moves hio hp p _) (fun _ => ?_)
  refine Out.all_ite (fun _ => Out.all_unwrap (fun id _ => ?_)) (fun _ => ?_)
  · exact (enter_roll env s p id _).mono (fun _ h => same h)
  refine Out.all_ite (fun _ => (leave_roll env s p false).mono (fun _ h => same h)) (fun _ => ?_)
  refine Out.all_ite (fun h => absurd h hset) (fun _ => ?_)
  refine Out.all_ite (fun _ => (getModerationTicket_roll env s p _).mono (fun _ h => same h)) (fun _ => ?_)
  exact Out.all_ite (fun _ => (createRoom_roll env s p _).mono (fun _ h => same h)) (fun _ => inRoom_moves env s p m _)

end Server

end Relay
