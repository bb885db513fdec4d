import GameRelay.Pulses
import GameRelay.Trace
/-!
# Unsaved — what a failed account write leaves behind

`authenticate`, `changeName` and `setPushDevice` change the accounts in memory first and write the file afterwards, and
nothing is taken back when the write fails.  So **a failed write leaves the accounts as they were just when the command
had nothing to change** (`failed_save_leaves`): never for `authenticate`, which binds its connection before the write.
-/
namespace Relay

namespace Server

/-- Accounts and rooms are as they were, and every connection is bound and open as it was. -/
structure Untouched (s t : Server) : Prop where
  accounts : t.players.get = s.players.get
  rooms : t.rooms.get = s.rooms.get
  links : t.links = s.links

theorem Untouched.refl (s : Server) : s.Untouched s := ⟨rfl, rfl, rfl⟩

/-- The entry `setPushDevice` writes. -/
def deviceEntry (d : Value) : Value :=
  .obj [("token", d.idx "token"), ("foreground", d.idx "foreground"), ("language", .str (((d.idx "language").asStr).getD "en"))]

/-- No device other than this one has the token. -/
def Sole (s : Server) (p device : String) (token : Value) : Prop :=
  ∀ q b id x, s.players.get q = some b → b.devices.get id = some x → x.idx "token" = token → q = p ∧ id = device

/-- What the message asks for is so already: the device is off, or it is on with this entry and alone has its token. -/
def InForce (s : Server) (p : String) (d : Value) : Prop :=
  ∃ a device, s.players.get p = some a ∧ (d.idx "deviceId").asStr = some device ∧
    if (d.idx "token").isNull then a.devices.get device = none
    else a.devices.get device = some (deviceEntry d) ∧ s.Sole p device (d.idx "token")

/-- The account has this name already. -/
def Named (s : Server) (p : String) (d : Value) : Prop := ∃ a, s.players.get p = some a ∧ d = .str a.name

variable {s t : Server} {p : String}

theorem registerDevice_get (a : Player) (device : String) (d : Value) :
    (registerDevice a device d).devices.get device = some (deviceEntry d) := by
  unfold registerDevice
  exact IndexMap.get_insert_self _ _ _

/-- A registration adds no device but its own. -/
theorem registerDevice_get_ne {a : Player} {device id : String} {d x : Value} (hne : id ≠ device)
    (h : (registerDevice a device d).devices.get id = some x) : a.devices.get id = some x := by
  unfold registerDevice at h
  dsimp only at h
  rw [IndexMap.get_insert_ne _ _ hne] at h
  split at h
  · exact IndexMap.get_of_dropFirst h
  · exact h

theorem registerDevice_of_get {a : Player} {device : String} {d : Value} (h : a.devices.get device = some (deviceEntry d)) :
    registerDevice a device d = a := by
  have hc : a.devices.contains device = true := IndexMap.contains_iff.2 ⟨_, h⟩
  unfold registerDevice
  dsimp only
  rw [hc]
  show { a with devices := a.devices.insert device (deviceEntry d) } = a
  rw [IndexMap.insert_of_get h]

/-- An account keeps its devices when none but the claiming one has the token. -/
theorem claimToken_of {a : Player} {device : String} {token : Value}
    (h : ∀ id x, a.devices.get id = some x → x.idx "token" = token → a.id = p ∧ id = device) :
    claimToken p device token a = a := by
  unfold claimToken
  rw [IndexMap.retain_eq_self.2 (fun id x hx => ?_)]
  simp only [Bool.or_eq_true, Bool.and_eq_true, decide_eq_true_eq]
  by_cases ht : x.idx "token" = token
  · exact .inr (h id x hx ht)
  · exact .inl ht

theorem claimToken_get {a : Player} {device id : String} {token x : Value}
    (h : (claimToken p device token a).devices.get id = some x) (ht : x.idx "token" = token) : a.id = p ∧ id = device := by
  unfold claimToken at h
  rw [IndexMap.get_retain, Option.filter_eq_some_iff] at h
  simpa [ht] using h.2

/-- **A failed rename leaves the accounts alone just when it is none.** -/
theorem changeName_untouched [Extern] {env : Env} {d : Value} (h : s.changeName env p d = .err t) : s.Untouched t ↔ s.Named p d := by
  unfold changeName at h
  cases ha : s.players.get p with
  | none => rw [ha] at h; cases h
  | some a =>
    rw [ha] at h
    cases hd : d.asStr with
    | none => rw [hd] at h; cases h
    | some name =>
      have hname : d = .str name := by
        cases d with
        | str x => cases hd; rfl
        | _ => cases hd
      rw [hd] at h
      dsimp only [Out.unwrap] at h
      split at h
      · cases h
        constructor
        · intro hu
          have := congrFun hu.accounts p
          rw [show (s.setPlayer p { a with name := name }).players.get p = some { a with name := name } from
            IndexMap.get_insert_self _ _ _, ha] at this
          exact ⟨a, ha, by rw [hname, ← congrArg Player.name (Option.some.inj this)]⟩
        · rintro ⟨b, hb, hdb⟩
          rw [ha] at hb
          cases hb
          rw [hname] at hdb
          cases hdb
          refine ⟨?_, rfl, rfl⟩
          show (s.players.insert p a).get = _
          rw [IndexMap.insert_of_get ha]
      · split at h <;> cases h

/-- The accounts after a registration. -/
def registered (s : Server) (p device : String) (d : Value) : IndexMap String Player :=
  (s.players.mapVals (fun _ a => claimToken p device (d.idx "token") a)).modify p (fun a => registerDevice a device d)

theorem registered_get (device : String) (d : Value) {a : Player} (ha : s.players.get p = some a) (q : String) :
    (s.registered p device d).get q = if q = p then some (registerDevice (claimToken p device (d.idx "token") a) device d)
      else (s.players.get q).map (claimToken p device (d.idx "token")) := by
  unfold registered
  rw [IndexMap.get_modify, IndexMap.get_mapVals, IndexMap.get_mapVals, ha]
  rfl

/-- **A registration changes nothing just when it is in force.** -/
theorem registered_get_iff (hk : s.world.Keyed) {device : String} {d : Value} {a : Player} (ha : s.players.get p = some a) :
    (s.registered p device d).get = s.players.get ↔
      a.devices.get device = some (deviceEntry d) ∧ s.Sole p device (d.idx "token") := by
  have hid : ∀ {q b}, s.players.get q = some b → b.id = q := fun h => hk.seats (seats_eq h)
  constructor
  · intro h
    have hself : registerDevice (claimToken p device (d.idx "token") a) device d = a := by
      have := congrFun h p
      rw [registered_get device d ha, if_pos rfl, ha] at this
      exact Option.some.inj this
    refine ⟨?_, fun q b id x hq hx ht => ?_⟩
    · have := registerDevice_get (claimToken p device (d.idx "token") a) device d
      rwa [hself] at this
    · by_cases hqp : q = p
      · subst hqp
        rw [ha] at hq
        cases hq
        refine ⟨rfl, ?_⟩
        by_contra hne
        rw [← hself] at hx
        exact hne (claimToken_get (registerDevice_get_ne hne hx) ht).2
      · exfalso
        have hclaim : claimToken p device (d.idx "token") b = b := by
          have := congrFun h q
          rw [registered_get device d ha, if_neg hqp, hq] at this
          exact Option.some.inj this
        rw [← hclaim] at hx
        exact hqp ((hid hq).symm.trans (claimToken_get hx ht).1)
  · rintro ⟨hentry, hsole⟩
    have hclaim : ∀ {q b}, s.players.get q = some b → claimToken p device (d.idx "token") b = b := fun {q b} hq =>
      claimToken_of (fun id x hx ht => ⟨(hid hq).trans (hsole q b id x hq hx ht).1, (hsole q b id x hq hx ht).2⟩)
    funext q
    rw [registered_get device d ha]
    split
    · rename_i hq
      rw [hclaim ha, registerDevice_of_get hentry, hq, ha]
    · cases hq : s.players.get q with
      | none => rfl
      | some b => exact congrArg some (hclaim hq)

variable [Extern]

/-- **A failed registration leaves the accounts alone just when it is in force.** -/
theorem setPushDevice_untouched {env : Env} {d : Value} (hk : s.world.Keyed) (h : s.setPushDevice env p d = .err t) :
    s.Untouched t ↔ s.InForce p d := by
  unfold setPushDevice at h
  split at h
  · cases h
  cases hdev : (d.idx "deviceId").asStr with
  | none => rw [hdev] at h; cases h
  | some device =>
  cases ha : s.players.get p with
  | none => rw [hdev, ha] at h; cases h
  | some a =>
  have hforce : s.InForce p d ↔ if (d.idx "token").isNull then a.devices.get device = none
      else a.devices.get device = some (deviceEntry d) ∧ s.Sole p device (d.idx "token") := by
    constructor
    · rintro ⟨b, device', hb, hdev', hin⟩
      rw [ha] at hb
      rw [hdev] at hdev'
      cases hb
      cases hdev'
      exact hin
    · exact fun hin => ⟨a, device, ha, hdev, hin⟩
  rw [hforce]
  rw [hdev, ha] at h
  dsimp only [Out.unwrap] at h
  by_cases hnull : (d.idx "token").isNull = true
  · simp only [if_pos hnull] at h ⊢
    rw [show (s.setPlayer p { a with devices := a.devices.shiftRemove device }).players.get p =
      some { a with devices := a.devices.shiftRemove device } from IndexMap.get_insert_self _ _ _] at h
    dsimp only [Out.unwrap] at h
    split at h
    · cases h
      constructor
      · intro hu
        have := congrFun hu.accounts p
        rw [show (s.setPlayer p { a with devices := a.devices.shiftRemove device }).players.get p =
          some { a with devices := a.devices.shiftRemove device } from IndexMap.get_insert_self _ _ _, ha] at this
        rw [← congrArg Player.devices (Option.some.inj this), IndexMap.get_shiftRemove, if_pos rfl]
      · intro hnone
        refine ⟨?_, rfl, rfl⟩
        show (s.players.insert p { a with devices := a.devices.shiftRemove device }).get = _
        rw [IndexMap.shiftRemove_of_get_none hnone, IndexMap.insert_of_get ha]
    · cases h
  · simp only [if_neg hnull] at h ⊢
    have hget : (s.registered p device d).get p = some (registerDevice (claimToken p device (d.idx "token") a) device d) := by
      rw [registered_get device d ha, if_pos rfl]
    unfold registered at hget
    rw [hget] at h
    dsimp only [Out.unwrap] at h
    split at h
    · cases h
      exact Iff.trans ⟨fun hu => hu.accounts, fun he => ⟨he, rfl, rfl⟩⟩ (registered_get_iff hk ha)
    · cases h

/-- A greeting that cannot save its account has bound the connection. -/
theorem bind_err {env : Env} {cid : Nat} {id : String} {created : Bool} (h : s.bind env cid id created = .err t) :
    (t.connections.get cid).bind (·.player) = some id := by
  unfold bind at h
  cases hp : s.players.get id with
  | none => rw [hp] at h; cases h
  | some a =>
  rw [hp] at h
  dsimp only [Out.unwrap] at h
  split at h
  · split at h
    · cases h
      show (((s.connections.insert cid _).get cid).bind (·.player)) = some id
      rw [IndexMap.get_insert_self]
      rfl
    · split at h <;> cases h
  · cases h

omit [Extern] in
theorem ite_ne_err {c : Prop} [Decidable c] {o o' : Out Server} (h : o ≠ .err t) (h' : o' ≠ .err t) :
    (if c then o else o') ≠ .err t := by
  split
  · exact h
  · exact h'

/-- Leaving a room does not fail. -/
theorem leave_ne_err (env : Env) (s : Server) (p : String) (d : Bool) : s.leave env p d ≠ .err t := by
  unfold leave
  refine Out.unwrap_ne_err (fun a => ?_)
  dsimp only
  cases a.room with
  | none => exact (fun h => nomatch h)
  | some id =>
    dsimp only
    generalize (if d = true then s.setPlayer p (releasePlayer a)
      else (s.setPlayer p (releasePlayer a)).dropReservations p) = u
    cases u.rooms.get id with
    | none => exact (fun h => nomatch h)
    | some r =>
      dsimp only
      refine ite_ne_err (ite_ne_err (fun h => nomatch h) (fun h => nomatch h)) (Out.unwrap_ne_err (fun _ h => nomatch h))

theorem reconnect_err {env : Env} {cid : Nat} {a : Player} {d : Value} (h : s.reconnect env cid a d = .err t) :
    (t.connections.get cid).bind (·.player) = some a.id := by
  unfold reconnect at h
  dsimp only at h
  generalize (if s.players.contains a.id then s else s.setPlayer a.id a) = u at h
  have next : ∀ {u : Server} {b : Option Player},
      Out.unwrap b (fun p => bind env ((u.replaceSession p).setPlayer a.id (renamed p d)) cid a.id false) = .err t →
      (t.connections.get cid).bind (·.player) = some a.id := by
    intro u b h
    cases b with
    | none => cases h
    | some b => exact bind_err h
  split at h
  · cases hl : u.leave env a.id true with
    | ok v =>
      rw [hl] at h
      exact next (u := v) (b := v.players.get a.id) h
    | err v => exact absurd hl (leave_ne_err env u a.id true)
    | halt x => rw [hl] at h; cases h
  · exact next (u := u) (b := some a) h

omit [Extern] in
/-- A connection that was not bound is not. -/
theorem Untouched.unbound {cid : Nat} (h : s.Untouched t) (hs : (s.connections.get cid).bind (·.player) = none) :
    (t.connections.get cid).bind (·.player) = none := by
  have hplayer : ∀ u : Server, (u.connections.get cid).bind (·.player) = (u.links cid).bind (·.player) := fun u => by
    unfold Server.links
    cases u.connections.get cid <;> rfl
  rw [hplayer, h.links, ← hplayer, hs]

/-- **A failed authentication leaves the accounts alone just when it is the account that could not be read.** -/
theorem auth_untouched {env : Env} {cid : Nat} {d : Value} (hc : (s.connections.get cid).bind (·.player) = none)
    (h : s.auth env cid d = .err t) : (s.expire env.now).Untouched t ↔
      (s.expire env.now).retainedAccount env (((d.idx "playerId").asStr).getD "") = .error () := by
  have hconn : ((s.expire env.now).connections.get cid).bind (·.player) = none := by
    rw [expire_connections]
    exact hc
  -- once the connection is bound, the accounts were touched
  have touched : ∀ {id : String}, (t.connections.get cid).bind (·.player) = some id → ¬ (s.expire env.now).Untouched t := by
    intro id hid hu
    rw [hu.unbound hconn] at hid
    cases hid
  unfold auth at h
  dsimp only at h
  generalize s.expire env.now = u at h hconn touched ⊢
  split at h
  · rename_i hcreated
    have hread : u.retainedAccount env (((d.idx "playerId").asStr).getD "") ≠ .error () := by
      have hid : d.idx "playerId" = .null := by
        unfold Value.idx
        rw [Option.isNone_iff_eq_none.1 (Bool.and_eq_true_iff.1 hcreated).1]
        rfl
      rw [hid]
      unfold retainedAccount
      split
      · exact (fun he => nomatch he)
      · rw [show isUuid _ = false from by decide]
        exact (fun he => nomatch he)
    split at h
    · cases h
    · unfold drawId at h
      dsimp only at h
      split at h
      · cases h
      · exact iff_of_false (touched (bind_err h)) hread
  · cases hr : u.retainedAccount env (((d.idx "playerId").asStr).getD "") with
    | error e =>
      rw [hr] at h
      cases h
      exact iff_of_true (Untouched.refl _) rfl
    | ok o =>
      rw [hr] at h
      refine iff_of_false ?_ (fun he => nomatch he)
      cases o with
      | none => cases h
      | some a =>
        dsimp only at h
        split at h
        · cases h
        · exact touched (reconnect_err h)

/-- **A failed account write leaves the accounts alone just when there was nothing to change.**  In every reachable state:
a failing `authenticate` changes nothing beyond expiry exactly when it is the read of the account that failed, never when it
is the write; a failing `changeName` exactly when the account has the name; a failing `setPushDevice` exactly when the
registration, or its end, is in force. -/
theorem failed_save_leaves {config : Config} {store : Store} {push : Bool} {s : Server}
    (h : Run (fun _ _ _ => True) (boot config store push) s) :
    (∀ env t cid d, (s.connections.get cid).bind (·.player) = none → s.auth env cid d = .err t →
      ((s.expire env.now).Untouched t ↔
        (s.expire env.now).retainedAccount env (((d.idx "playerId").asStr).getD "") = .error ())) ∧
    (∀ env t cid p v txt, s.Valid txt v "changeName" → s.handle env cid p v = .err t →
      (s.Untouched t ↔ s.Named p (v.idx "data"))) ∧
    ∀ env t cid p v txt, s.Valid txt v "setPushDevice" → s.handle env cid p v = .err t →
      (s.Untouched t ↔ s.InForce p (v.idx "data")) := by
  refine ⟨fun env t cid d hc he => auth_untouched hc he, fun env t cid p v txt hv he => ?_, fun env t cid p v txt hv he => ?_⟩
  · unfold handle at he
    rw [hv.method] at he
    simp only [Out.unwrap, String.reduceEq, if_false, if_true] at he
    exact changeName_untouched he
  · unfold handle at he
    rw [hv.method] at he
    simp only [Out.unwrap, String.reduceEq, if_false, if_true] at he
    exact setPushDevice_untouched (Run.base h (boot_base config store push)).keyed he

end Server

namespace Trace

def changeName (name : String) : Value := .obj [("method", .str "changeName"), ("data", .str name)]

/-- The first account signs up. -/
def signedUp : List (Env × Command) := [(.plain 1, .connected 1), (.plain 1, .tells 1 signUp)]

end Trace

namespace Server

/-- An account asks for the name it has, and it cannot be written. -/
theorem failed_save_leaves_name :
    letI := Extern.reading [Trace.signUp, Trace.changeName "Player"]
    ∃ s t, Run (fun _ _ _ => True) (boot .default .empty false) s ∧
      s.handle (Env.failing 1) 1 Trace.account (Trace.changeName "Player") = .err t ∧ s.Untouched t := by
  let _ := Extern.reading [Trace.signUp, Trace.changeName "Player"]
  have h : (exec (fun _ _ _ => true) Trace.signedUp (boot .default .empty false)).any (fun s =>
      (s.players.get Trace.account).any (fun a => decide (a.name = "Player")) &&
      decide (Protocol.parse (plainText (Trace.changeName "Player")) = some (Trace.changeName "Player")) &&
      Protocol.validate (Trace.changeName "Player") s.config.maxRoomPlayers s.config.maxAccounts &&
      (s.handle (Env.failing 1) 1 Trace.account (Trace.changeName "Player")).result.isNone &&
      (s.handle (Env.failing 1) 1 Trace.account (Trace.changeName "Player")).state.isSome) = true := by
    decide +kernel
  obtain ⟨s, hs, h⟩ := (Option.any_eq_true _ _).1 h
  simp only [Bool.and_eq_true, decide_eq_true_eq] at h
  obtain ⟨⟨⟨⟨ha, hparse⟩, hvalid⟩, hno⟩, hleft⟩ := h
  obtain ⟨a, ha, hname⟩ := (Option.any_eq_true _ _).1 ha
  have hrun : Run (fun _ _ _ => True) (boot .default .empty false) s := exec_run (fun _ _ _ _ => trivial) hs
  cases ht : s.handle (Env.failing 1) 1 Trace.account (Trace.changeName "Player") with
  | ok t => rw [ht] at hno; cases hno
  | halt x => rw [ht] at hleft; cases hleft
  | err t =>
    refine ⟨s, t, hrun, ht, ((failed_save_leaves hrun).2.1 _ t 1 _ _ _ ⟨hparse, hvalid, rfl⟩ ht).2 ⟨a, ha, ?_⟩⟩
    rw [of_decide_eq_true hname]
    rfl

/-- **A connection whose sign-up cannot be written is answered with a storage error and stays bound** to an
account that is on no disk. -/
theorem refused_yet_bound :
    letI := Extern.reading [Trace.signUp]
    ∃ s t, Run (fun _ _ _ => True) (boot .default .empty false) s ∧ s.step (Env.failing 1) (.tells 1 Trace.signUp) = some t ∧
      t.offered = s.offered ++ [(1, .text (errorData "storage_error"))] ∧ ¬ (s.expire 1).Untouched t ∧
      (t.connections.get 1).bind (·.player) = some Trace.account := by
  let _ := Extern.reading [Trace.signUp]
  have h : (exec (fun _ _ _ => true) [(Env.plain 1, .connected 1)] (boot .default .empty false)).any (fun s =>
      decide (((s.expire 1).connections.get 1).bind (·.player) = none) &&
      (s.step (Env.failing 1) (.tells 1 Trace.signUp)).any (fun t =>
        decide (t.offered = s.offered ++ [(1, .text (errorData "storage_error"))]) &&
        decide ((t.connections.get 1).bind (·.player) = some Trace.account))) = true := by
    decide +kernel
  obtain ⟨s, hs, h⟩ := (Option.any_eq_true _ _).1 h
  obtain ⟨hnone, h⟩ := Bool.and_eq_true_iff.1 h
  obtain ⟨t, ht, h⟩ := (Option.any_eq_true _ _).1 h
  obtain ⟨hoff, hbound⟩ := Bool.and_eq_true_iff.1 h
  refine ⟨s, t, exec_run (fun _ _ _ _ => trivial) hs, ht, of_decide_eq_true hoff, fun hu => ?_, of_decide_eq_true hbound⟩
  have := hu.unbound (of_decide_eq_true hnone)
  rw [of_decide_eq_true hbound] at this
  cases this

end Server
end Relay
