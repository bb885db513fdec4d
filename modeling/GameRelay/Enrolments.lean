import GameRelay.Delays
import GameRelay.Rolls
/-!
# Enrolments — the registrations of a command, in order

`Server.enrolments` lists the registrations a command makes, each with the state it is made in; a frame from the delay
queue has its turn in the middle of a sweep.  `Roll.Trail` is a chain of moves with its registrations, and **every
command is one** (`step_trail`).
-/
namespace Relay

open Function (update)

variable [Extern]

namespace Server

/-- What the frame registers when it is executed in this state. -/
def enrols (s : Server) (cid : Nat) : Frame → Option Registration
  | .text t => ((s.connections.get cid).bind (·.player)).bind (fun p => (Protocol.parse t).bind (registration s.push p))
  | _ => none

/-- The registration of an executed frame, with the state. -/
def enrolled (s : Server) (cid : Nat) (frame : Frame) : List (Server × Registration) :=
  ((s.enrols cid frame).map (fun g => (s, g))).toList

/-- Is the message executed as it comes in? -/
def executesNow (env : Env) (s : Server) (cid : Nat) (t : String) : Bool :=
  (s.connections.get cid).any (fun c => !c.closing && s.isCurrent cid c &&
    decide ((countFrame c env.now).messages ≤ s.config.maxMessagesPerSecond) && c.player.isSome) &&
  decide (t.utf8ByteSize ≤ s.config.maxPayloadBytes) &&
  (Protocol.parse t).any (fun v => Protocol.validate v s.config.maxRoomPlayers s.config.maxAccounts &&
    decide (Protocol.size v ≤ s.config.maxPayloadBytes)) &&
  decide (s.config.sendDelayMs = 0)

/-- The registrations of the delayed frames that are due. -/
def delayedEnrolments (env : Env) : List Delayed → Server → List (Server × Registration)
  | [], _ => []
  | d :: ds, s =>
    if env.now < d.time then delayedEnrolments env ds { s with delayed := s.delayed ++ [d] }
    else (if s.acts d then s.enrolled d.cid d.frame else []) ++
      match s.turn env d with
      | .ok t => delayedEnrolments env ds t
      | _ => []

/-- The registrations a command makes, in order, each with the state it is made in. -/
def enrolments (env : Env) (s : Server) : Command → List (Server × Registration)
  | .receive cid (.text t) =>
    if s.executesNow env cid t then s.enrolled cid (.text t) else []
  | .sweep => delayedEnrolments env s.delayed { s with delayed := [] }
  | _ => []

end Server

/-- A chain of moves, with its registrations. -/
inductive Roll.Trail : Roll → List (Server × Registration) → Roll → Prop
  | refl (r : Roll) : Trail r [] r
  | quiet {r r' r'' : Roll} {l : List (Server × Registration)} (h : Trail r l r') (hm : Roll.Moves none r' r'') :
      Trail r l r''
  | registered {r r' : Roll} {l : List (Server × Registration)} {s : Server} {g : Registration} (h : Trail r l s.roll)
      (hm : Roll.Moves (some g) s.roll r') : Trail r (l ++ [(s, g)]) r'

namespace Roll.Trail

omit [Extern] in
theorem of_eq {r r' : Roll} (h : r' = r) : Trail r [] r' := by rw [h]; exact .refl r

omit [Extern] in
theorem trans {r r' r'' : Roll} {l l' : List (Server × Registration)} (h : Trail r l r') (h' : Trail r' l' r'') :
    Trail r (l ++ l') r'' := by
  induction h' with
  | refl => rw [List.append_nil]; exact h
  | quiet _ hm ih => exact .quiet ih hm
  | registered _ hm ih => rw [← List.append_assoc]; exact .registered ih hm

omit [Extern] in
/-- **What quiet moves and the registrations of a trail keep, the trail keeps.** -/
theorem invariant {I : Roll → Prop} {r r' : Roll} {l : List (Server × Registration)}
    (hq : ∀ r r', Roll.Moves none r r' → I r → I r')
    (hr : ∀ e ∈ l, ∀ r', Roll.Moves (some e.2) e.1.roll r' → I e.1.roll → I r') (h : Trail r l r') (hI : I r) : I r' := by
  induction h with
  | refl => exact hI
  | quiet _ hm ih => exact hq _ _ hm (ih hr)
  | registered _ hm ih =>
    refine hr _ (List.mem_append_right _ (List.mem_singleton_self _)) _ hm (ih (fun e he => hr e ?_))
    exact List.mem_append_left _ he

omit [Extern] in
theorem proper {r r' : Roll} {l : List (Server × Registration)} (h : Trail r l r') (hp : r.Proper) : r'.Proper :=
  h.invariant (fun _ _ hm hp => hp.move hm) (fun _ _ _ hm hp => hp.move hm) hp

end Roll.Trail

namespace Server

/-! Executing a frame. -/

theorem dispatch_trail {env : Env} (hio : ∀ n, env.io n = true) {s : Server} (hp : s.roll.Proper) (cid : Nat)
    (frame : Frame) {parsed : Option Value}
    (hparsed : ∀ txt v, frame = .text txt → parsed = some v → Protocol.parse txt = some v) :
    (s.dispatch env cid frame parsed).All
      (fun t => ∀ s₀ : Server, s₀.roll = s.roll → s₀.enrols cid frame = s.enrols cid frame →
        Roll.Trail s₀.roll (s₀.enrolled cid frame) t.roll) := by
  have one : ∀ {a : Option Registration} {t : Server}, Roll.Moves a s.roll t.roll → s.enrols cid frame = a →
      ∀ s₀ : Server, s₀.roll = s.roll → s₀.enrols cid frame = s.enrols cid frame →
        Roll.Trail s₀.roll (s₀.enrolled cid frame) t.roll := by
    rintro a t hm ha s₀ hroll he
    unfold enrolled
    rw [he, ha]
    cases a with
    | none => exact .quiet (.refl _) (hroll ▸ hm)
    | some g => exact .registered (.refl _) (hroll ▸ hm)
  unfold dispatch
  split
  · rename_i hn
    refine one (.same _) ?_
    cases frame <;> simp only [enrols, hn, Option.bind_none]
  rename_i p hpl
  cases frame with
  | text txt =>
    refine Out.all_unwrap (fun v hv => ?_)
    have hparse : Protocol.parse txt = some v := by
      cases hpd : parsed with
      | none => rw [hpd] at hv; exact hv
      | some w => rw [hpd] at hv; cases hv; exact hparsed txt v rfl hpd
    have hen : s.enrols cid (.text txt) = registration s.push p v := by
      simp only [enrols, hpl, hparse, Option.bind_some]
    refine reportErr_all (handle_moves hio hp cid p v) (fun u hu => one hu hen) (fun u hu => ?_)
    exact one (by rw [(sent_error u cid _).roll]; exact hu) hen
  | binary b =>
    refine reportErr_all (binary_roll env s p b) (fun u hu => one (by rw [hu]; exact .same _) rfl) (fun u hu => ?_)
    exact one (by rw [(sent_error u cid _).roll, hu]; exact .same _) rfl
  | ping b => exact one (.same _) rfl
  | pong b => exact one (.same _) rfl

/-! Expiry and the end of a connection. -/

omit [Extern] in
theorem removeAccounts_trail : ∀ (ids : List String) (s : Server),
    Roll.Trail s.roll [] (ids.foldl removeAccount s).roll
  | [], s => .refl _
  | id :: ids, s => by
    have hroll : (s.removeAccount id).roll = { s.roll with memory := update s.roll.memory id none } := by
      refine congrArg (fun m => Roll.mk s.store.enabled m s.roll.files s.legacyPushes) (funext (fun x => ?_))
      show ((s.players.shiftRemove id).get x).map Player.profile = update s.roll.memory id none x
      rw [IndexMap.get_shiftRemove, Function.update_apply]
      split <;> rfl
    have hstep : Roll.Trail s.roll [] (s.removeAccount id).roll := .quiet (.refl _) (by rw [hroll]; exact .expired id)
    exact hstep.trans (removeAccounts_trail ids (s.removeAccount id))

omit [Extern] in
theorem expire_trail (s : Server) (now : Nat) : Roll.Trail s.roll [] (s.expire now).roll := removeAccounts_trail _ s

theorem disconnect_roll (env : Env) (s : Server) (cid : Nat) : (s.disconnect env cid).All (fun t => t.roll = s.roll) := by
  unfold disconnect
  split
  · rfl
  dsimp only
  generalize ht : ({ s with delayed := _, connections := _ } : Server) = t
  have hroll : t.roll = s.roll := by rw [← ht]; rfl
  have hpl : t.players = s.players := by rw [← ht]
  split
  · exact hroll
  split
  · exact hroll
  rename_i id _ _ p hp
  split
  · have h₁ : (t.setPlayer id { p with connection := none, offline := some env.now }).roll = t.roll :=
      roll_setPlayer_same (p := p) (by rw [hpl]; exact hp) rfl
    have hl := leave_roll env (t.setPlayer id { p with connection := none, offline := some env.now }) id true
    generalize leave env (t.setPlayer id { p with connection := none, offline := some env.now }) id true = o at hl
    cases o with
    | ok u => exact Eq.trans hl (h₁.trans hroll)
    | err u => exact Eq.trans hl (h₁.trans hroll)
    | halt h => trivial
  · exact hroll

/-! Authenticating. -/

theorem bind_roll {env : Env} (hio : ∀ n, env.io n = true) {s : Server} (he : s.store.enabled = true) (cid : Nat)
    {id : String} {p : Player} (hp : s.players.get id = some p) (hid : p.id = id) (hu : isUuid id = true)
    (hl : lowerText id = id) (created : Bool) :
    (bind env s cid id created).All (fun t => t.roll = s.roll.write id p.profile) := by
  unfold bind
  refine Out.all_unwrap (fun p' hp' => ?_)
  obtain rfl : p = p' := Option.some.inj (hp.symm.trans hp')
  dsimp only
  refine Out.all_unwrap (fun c _ => ?_)
  subst hid
  have hsaved : ∀ {st ok}, s.store.saveAccount env.io { p with connection := some cid, offline := none, rtt := none } =
      (st, ok) → ok = true ∧ ({ (s.setPlayer p.id { p with connection := some cid, offline := none, rtt := none }).setConnection
        cid { c with player := some p.id } with store := st } : Server).roll = s.roll.write p.id p.profile := fun hst =>
    write_roll hio (s := s) (p := { p with connection := some cid, offline := none, rtt := none }) he hu hl
      (t := (s.setPlayer p.id { p with connection := some cid, offline := none, rtt := none }).setConnection cid
        { c with player := some p.id }) rfl hst
  split
  · rename_i st hst
    exact absurd (hsaved hst).1 (by decide)
  · rename_i st hst
    have hroll := (hsaved hst).2
    generalize ({ (s.setPlayer p.id { p with connection := some cid, offline := none, rtt := none }).setConnection cid
      { c with player := some p.id } with store := st } : Server) = s₁ at hroll ⊢
    have hgreet : ∀ v w, Sent s₁ (Server.sendC (if created then s₁.sendC cid v else s₁) cid w) := fun v w => by
      split
      · exact (sent_sendC s₁ cid v).trans (sent_sendC _ cid w)
      · exact sent_sendC s₁ cid w
    split
    · exact ((hgreet _ _).trans (sent_sendC _ cid _)).roll.trans hroll
    · exact (hgreet _ _).roll.trans hroll

theorem replaceSession_roll (s : Server) (p : Player) : (s.replaceSession p).roll = s.roll := by
  unfold replaceSession
  split
  · rename_i old _
    exact (sent_close s old _ _).roll
  · rfl

omit [Extern] in
theorem renamed_profile (p : Player) (d : Value) : (renamed p d).id = p.id ∧ (renamed p d).profile.devices = p.profile.devices := by
  unfold renamed
  split <;> exact ⟨rfl, rfl⟩

/-- The account is bound again as it was, but for its name. -/
theorem rebind_roll {env : Env} (hio : ∀ n, env.io n = true) {s : Server} (he : s.store.enabled = true) (cid : Nat)
    {p : Player} (hu : isUuid p.id = true) (hl : lowerText p.id = p.id) (d : Value) :
    (bind env ((s.replaceSession p).setPlayer p.id (renamed p d)) cid p.id false).All
      (fun t => t.roll = s.roll.write p.id (renamed p d).profile) := by
  have hrep := replaceSession_roll s p
  generalize s.replaceSession p = u at hrep
  have hb := bind_roll hio (s := u.setPlayer p.id (renamed p d)) ((congrArg Roll.enabled hrep).trans he) cid
    (IndexMap.get_insert_self _ _ _) (renamed_profile p d).1 hu hl false
  refine hb.mono (fun t ht => ht.trans ?_)
  rw [roll_setPlayer, hrep]
  show Roll.mk _ (update (update _ _ _) _ _) _ _ = Roll.mk _ (update _ _ _) _ _
  rw [Function.update_idem]

/-- **A return writes the account as it was**, in memory or on file. -/
theorem reconnect_moves {env : Env} (hio : ∀ n, env.io n = true) {s : Server} (hp : s.roll.Proper) (cid : Nat)
    {key : String} {p : Player} (d : Value) (h : s.retainedAccount env key = .ok (some p)) :
    (s.reconnect env cid p d).All (fun t => Roll.Moves none s.roll t.roll) := by
  have hname : ∀ {a : Player} {t : Server} {x : Profile}, x = a.profile → a.id = p.id →
      (s.roll.memory p.id = some x ∨ s.roll.files p.id = some x) →
      t.roll = s.roll.write p.id (renamed a d).profile → Roll.Moves none s.roll t.roll := by
    rintro a t x rfl hid hx ht
    rw [ht]
    refine .wrote hx ((renamed_profile a d).1.trans hid) ?_
    rw [(renamed_profile a d).2]
  unfold reconnect
  dsimp only
  unfold retainedAccount at h
  split at h
  · rename_i p' hget
    cases h
    obtain ⟨hid, hu, hl⟩ := hp.memory (memory_eq hget)
    change p.id = key at hid
    subst hid
    rw [if_pos (IndexMap.contains_iff.2 ⟨p, hget⟩)]
    generalize (p.room.bind s.rooms.get).any _ = inFixed
    cases inFixed with
    | true =>
      simp only [if_true]
      refine Out.all_andThen (leave_roll env s p.id true) (fun u hroll => Out.all_unwrap (fun a ha => ?_)) (fun u hroll => ?_)
      · have hax : a.profile = p.profile := by
          have := (memory_eq ha).symm.trans ((congrArg (fun r => r.memory p.id) hroll).trans (memory_eq hget))
          exact Option.some.inj this
        have haid : a.id = p.id := congrArg Profile.id hax
        have hb := rebind_roll hio (s := u) ((congrArg Roll.enabled hroll).trans hp.enabled) cid (p := a)
          (by rw [haid]; exact hu) (by rw [haid]; exact hl) d
        rw [haid, hroll] at hb
        exact hb.mono (fun t ht => hname hax.symm haid (.inl (memory_eq hget)) ht)
      · rw [hroll]
        exact .same _
    | false =>
      simp only [Bool.false_eq_true, if_false]
      exact (rebind_roll hio hp.enabled cid hu hl d).mono (fun t ht => hname rfl rfl (.inl (memory_eq hget)) ht)
  · split at h
    · obtain ⟨hid, hfile⟩ := account_roll hp h
      obtain ⟨-, hu, hl⟩ := hp.files hfile
      rw [(account_shape h).2]
      simp only [Option.bind_none, Option.any_none, Bool.false_eq_true, if_false]
      generalize hs₁ : (if s.players.contains p.id = true then s else s.setPlayer p.id p) = s₁
      have he : s₁.store.enabled = true := by
        rw [← hs₁]
        split <;> exact hp.enabled
      have hw : ∀ x, s₁.roll.write p.id x = s.roll.write p.id x := fun x => by
        rw [← hs₁]
        split
        · rfl
        · rw [roll_setPlayer]
          show Roll.mk _ (update (update _ _ _) _ _) _ _ = Roll.mk _ (update _ _ _) _ _
          rw [Function.update_idem]
      exact (rebind_roll hio he cid hu hl d).mono (fun t ht => hname rfl rfl (.inr hfile) (ht.trans (hw _)))
    · cases h

theorem auth_trail {env : Env} (hio : ∀ n, env.io n = true) {s : Server} (hp : s.roll.Proper) (cid : Nat) (d : Value) :
    (s.auth env cid d).All (fun t => Roll.Trail s.roll [] t.roll) := by
  have hexp := expire_trail s env.now
  have hp₁ := hexp.proper hp
  unfold auth
  dsimp only
  generalize s.expire env.now = u at hexp hp₁
  have hsent : ∀ {t : Server}, Sent u t → Roll.Trail s.roll [] t.roll := fun h => by rw [h.roll]; exact hexp
  refine Out.all_ite (fun _ => ?_) (fun _ => ?_)
  · refine Out.all_ite (fun _ => hsent ((sent_error u cid _).trans (sent_close _ cid _ _))) (fun _ => ?_)
    unfold drawId
    dsimp only
    refine Out.all_ite (fun _ => trivial) (fun _ => ?_)
    have hu := UuidV4.isUuid_text (env.uuid u.draws)
    have hl : lowerText (env.uuid u.draws).text = (env.uuid u.draws).text := lowerText_uuidText _
    generalize (env.uuid u.draws).text = id at *
    generalize hpl : Player.new id _ _ env.now = pl
    have hid : pl.id = id := by rw [← hpl]; rfl
    have hdev : pl.profile.devices = [] := by rw [← hpl]; rfl
    refine (bind_roll hio (s := Server.setPlayer { u with draws := u.draws + 1, drawn := id :: u.drawn } id pl) hp₁.enabled cid
      (IndexMap.get_insert_self _ _ _) hid hu hl true).mono (fun t ht => ?_)
    rw [roll_setPlayer] at ht
    have hw : t.roll = u.roll.write id pl.profile := ht.trans (by
      show Roll.mk _ (update (update _ _ _) _ _) _ _ = Roll.mk _ (update _ _ _) _ _
      rw [Function.update_idem]
      rfl)
    rw [hw]
    exact .quiet hexp (.opened hid hu hl hdev)
  · split
    · exact hexp
    · exact hsent (sent_authenticationFailed u cid)
    · rename_i p hret
      refine Out.all_ite (fun _ => hsent (sent_authenticationFailed u cid)) (fun _ => ?_)
      exact (reconnect_moves hio hp₁ cid d hret).mono (fun t ht => .quiet hexp ht)

/-! Receiving a frame. -/

/-- A message that is not a registration registers nothing. -/
theorem enrolled_nil {s : Server} {cid : Nat} {t m : String} {v : Value} (hv : Protocol.parse t = some v)
    (hm : (v.idx "method").asStr = some m) (h : m ≠ "setPushDevice") : s.enrolled cid (.text t) = [] := by
  have hnone : s.enrols cid (.text t) = none := by
    unfold enrols
    cases (s.connections.get cid).bind (·.player) with
    | none => rfl
    | some p =>
      show (Protocol.parse t).bind (registration s.push p) = none
      rw [hv]
      exact registration_none hm h
  unfold enrolled
  rw [hnone]
  rfl

/-- A frame is executed, or queued. -/
theorem submit_trail {env : Env} (hio : ∀ n, env.io n = true) {s u : Server} (hp : s.roll.Proper) {cid : Nat}
    (p : String) {frame : Frame} {roomScoped immediate : Bool} {parsed : Option Value} {l : List (Server × Registration)}
    (hu : u.roll = s.roll) (he : u.enrols cid frame = s.enrols cid frame)
    (hl : l = if decide (0 < u.config.sendDelayMs) && !immediate then [] else s.enrolled cid frame)
    (hparsed : ∀ txt v, frame = .text txt → parsed = some v → Protocol.parse txt = some v) :
    (u.submit env cid p frame roomScoped immediate parsed).All (fun t => Roll.Trail s.roll l t.roll) := by
  unfold submit
  split
  · rename_i hq
    rw [hl, if_pos hq]
    refine Out.all_unwrap (fun c _ => ?_)
    refine Out.all_ite (fun _ => .of_eq ((sent_close u cid _ _).roll.trans hu)) (fun _ => ?_)
    exact Out.all_unwrap (fun player _ => .of_eq hu)
  · rename_i hq
    rw [hl, if_neg hq]
    exact (dispatch_trail hio (hu.symm ▸ hp) cid frame hparsed).mono (fun t ht => ht s hu.symm he.symm)

theorem receive_trail {env : Env} (hio : ∀ n, env.io n = true) {s : Server} (hp : s.roll.Proper) (cid : Nat)
    (frame : Frame) :
    (s.receive env cid frame).All (fun t => Roll.Trail s.roll (s.enrolments env (.receive cid frame)) t.roll) := by
  have hnil : ∀ txt, frame = .text txt → (s.executesNow env cid txt = false ∨ s.enrolled cid frame = []) →
      s.enrolments env (.receive cid frame) = [] := by
    rintro txt rfl h
    simp only [enrolments]
    rcases h with h | h
    · rw [h]; rfl
    · rw [h, ite_self]
  have hother : (∀ txt, frame ≠ .text txt) → s.enrolments env (.receive cid frame) = [] := fun h => by
    cases frame with
    | text txt => exact absurd rfl (h txt)
    | _ => rfl
  -- what is not executed registers nothing
  have idle : ∀ {u : Server}, (∀ txt, frame = .text txt → s.executesNow env cid txt = false ∨ s.enrolled cid frame = []) →
      u.roll = s.roll → Roll.Trail s.roll (s.enrolments env (.receive cid frame)) u.roll := fun h hu => by
    have : s.enrolments env (.receive cid frame) = [] := by
      by_cases ht : ∃ txt, frame = .text txt
      · obtain ⟨txt, ht⟩ := ht
        exact hnil txt ht (h txt ht)
      · exact hother (fun txt htxt => ht ⟨txt, htxt⟩)
    rw [this]
    exact .of_eq hu
  unfold receive
  split
  · rename_i hn
    exact idle (fun txt _ => .inl (by simp [executesNow, hn])) rfl
  rename_i c hc
  split
  · rename_i hcl
    refine idle (fun txt _ => .inl ?_) rfl
    simp only [Bool.or_eq_true, Bool.not_eq_true'] at hcl
    rcases hcl with h | h <;> simp [executesNow, hc, h]
  dsimp only
  have hget : (s.setConnection cid (countFrame c env.now)).connections.get cid = some (countFrame c env.now) :=
    IndexMap.get_insert_self _ _ _
  have hen : (s.setConnection cid (countFrame c env.now)).enrols cid frame = s.enrols cid frame := by
    cases frame with
    | text t =>
      simp only [enrols, hget, hc]
      rfl
    | _ => rfl
  generalize hu : s.setConnection cid (countFrame c env.now) = u at *
  have hroll : u.roll = s.roll := by rw [← hu]; rfl
  have hcfg : u.config = s.config := by rw [← hu]; rfl
  split
  · rename_i hrate
    refine idle (fun txt _ => .inl ?_) ((sent_close u cid _ _).roll.trans hroll)
    rw [hcfg] at hrate
    simp [executesNow, hc, Nat.not_le.2 hrate]
  rename_i hopen hrate
  split
  · exact idle (fun _ h => by cases h) ((sent_raw u cid _).roll.trans hroll)
  · exact idle (fun _ h => by cases h) hroll
  · rename_i txt
    have fail : ∀ {w : Server}, (s.executesNow env cid txt = false ∨ s.enrolled cid (.text txt) = []) → Sent u w →
        Roll.Trail s.roll (s.enrolments env (.receive cid (.text txt))) w.roll := fun h hw =>
      idle (fun _ he => by cases he; exact h) (hw.roll.trans hroll)
    rw [hcfg]
    split
    · rename_i hlen
      exact fail (.inl (by simp [executesNow, Nat.not_le.2 hlen])) (sent_close u cid _ _)
    rename_i hlen
    unfold receiveText
    rw [hcfg]
    split
    · rename_i hparse
      exact fail (.inl (by simp [executesNow, hparse])) (sent_error u cid _)
    rename_i v hparse
    split
    · rename_i hval
      exact fail (.inl (by simp [executesNow, hparse, hval])) (sent_error u cid _)
    rename_i hval
    split
    · rename_i hsize
      exact fail (.inl (by simp [executesNow, hparse, Nat.not_le.2 hsize])) (sent_error u cid _)
    rename_i hsize
    refine Out.all_unwrap (fun m hm => ?_)
    have hp' : u.roll.Proper := hroll.symm ▸ hp
    split
    · rename_i hpl
      change c.player = none at hpl
      have hno : s.executesNow env cid txt = false := by simp [executesNow, hc, hpl]
      refine Out.all_ite (fun _ => ?_) (fun _ => fail (.inl hno) (sent_error u cid _))
      have hl : s.enrolments env (.receive cid (.text txt)) = [] := hnil txt rfl (.inl hno)
      rw [hl, ← hroll]
      refine reportErr_all (auth_trail hio hp' cid _) (fun _ h => h) (fun w hw => ?_)
      rw [(sent_error w cid _).roll]
      exact hw
    · rename_i p hpl
      change c.player = some p at hpl
      refine Out.all_ite (fun hauth => ?_) (fun _ => ?_)
      · exact fail (.inr (enrolled_nil hparse hm (by rw [hauth]; decide))) (sent_error u cid _)
      · refine submit_trail hio hp p hroll hen ?_ (fun t w ht hw => by cases ht; cases hw; exact hparse)
        rw [hcfg]
        by_cases hdelay : s.config.sendDelayMs = 0
        · have hyes : s.executesNow env cid txt = true := by
            simp only [Bool.or_eq_true, not_or, Bool.not_eq_true', Bool.not_eq_true, Bool.not_eq_false] at hopen
            rw [hcfg] at hrate
            simp [executesNow, hc, hopen.1, hopen.2, Nat.not_lt.1 hrate, hpl, Nat.not_lt.1 hlen, hparse,
              Nat.not_lt.1 hsize, hdelay, eq_true_of_ne_false hval]
          simp [enrolments, hyes, hdelay]
        · have hno : s.executesNow env cid txt = false := by simp [executesNow, hdelay]
          have hl : s.enrolments env (.receive cid (.text txt)) = [] := hnil txt rfl (.inl hno)
          rw [hl]
          split
          · rfl
          · rename_i hpong
            have hm' : m = "Pong" := by
              simpa [Nat.pos_of_ne_zero hdelay] using hpong
            exact (enrolled_nil hparse hm (by rw [hm']; decide)).symm
  · split
    · exact idle (fun _ h => by cases h) ((sent_close u cid _ _).roll.trans hroll)
    split
    · exact idle (fun _ h => by cases h) ((sent_error u cid _).roll.trans hroll)
    split
    · exact idle (fun _ h => by cases h) ((sent_error u cid _).roll.trans hroll)
    · refine submit_trail hio hp _ hroll hen ?_ (fun _ _ h => by cases h)
      rw [hother (fun _ h => by cases h)]
      exact (ite_self _).symm

/-! Maintenance. -/

theorem turn_trail {env : Env} (hio : ∀ n, env.io n = true) {s : Server} (hp : s.roll.Proper) (d : Delayed) :
    (s.turn env d).All
      (fun t => Roll.Trail s.roll (if s.acts d then s.enrolled d.cid d.frame else []) t.roll) := by
  unfold turn
  cases hc : s.connections.get d.cid with
  | none =>
    rw [if_neg (by simp [acts, hc])]
    exact .of_eq rfl
  | some c =>
    dsimp only
    by_cases hacts : s.acts d = true
    · rw [if_pos hacts, if_pos hacts]
      generalize hu : s.setConnection d.cid (unqueue d c) = u
      have hroll : u.roll = s.roll := by rw [← hu]; rfl
      have hen : u.enrols d.cid d.frame = s.enrols d.cid d.frame := by
        rw [← hu]
        cases d.frame with
        | text t =>
          simp only [enrols, setConnection, IndexMap.get_insert_self, hc]
          rfl
        | _ => rfl
      have hno : ∀ txt v, d.frame = .text txt → (none : Option Value) = some v → Protocol.parse txt = some v :=
        fun _ _ _ h => by cases h
      exact (dispatch_trail hio (hroll.symm ▸ hp) d.cid d.frame hno).mono (fun t ht => ht s hroll.symm hen.symm)
    · rw [if_neg hacts, if_neg hacts]
      exact .of_eq rfl

/-- **The delayed frames register in their order.** -/
theorem runDelayed_trail {env : Env} (hio : ∀ n, env.io n = true) : ∀ (ds : List Delayed) (s : Server), s.roll.Proper →
    (runDelayed env ds s).All (fun t => Roll.Trail s.roll (delayedEnrolments env ds s) t.roll)
  | [], s, _ => .refl _
  | d :: ds, s, hp => by
    rw [runDelayed_cons, delayedEnrolments]
    split
    · exact runDelayed_trail hio ds { s with delayed := s.delayed ++ [d] } hp
    · have hturn := turn_trail hio hp d
      generalize s.turn env d = o at hturn
      cases o with
      | ok t =>
        have hturn : Roll.Trail s.roll _ t.roll := hturn
        exact (runDelayed_trail hio ds t (hturn.proper hp)).mono (fun u hu => hturn.trans hu)
      | err t =>
        show Roll.Trail s.roll _ t.roll
        rw [List.append_nil]
        exact hturn
      | halt h => trivial

theorem keepEmpty_roll (env : Env) : ∀ (ids : List String) (s : Server),
    (keepEmpty env ids s).All (fun t => t.roll = s.roll)
  | [], _ => rfl
  | id :: ids, s => by
    unfold keepEmpty
    refine Out.all_unwrap (fun r _ => ?_)
    exact (keepEmpty_roll env ids _).mono (fun t ht => ht.trans (roll_keep env (s.removeRoom id) r))

theorem sweepConnection_roll (env : Env) (s : Server) (cid : Nat) (c : Connection) :
    (s.sweepConnection env cid c).1.roll = s.roll := by
  unfold sweepConnection
  dsimp only
  repeat' split
  · exact (sent_close s cid _ _).roll
  · rfl
  · exact (sent_close s cid _ _).roll
  · exact (sent_sendC _ cid _).roll
  · rfl
  · rfl

theorem sweepConnections_roll (env : Env) : ∀ (cids : List Nat) (s : Server) (heartbeat : Bool),
    (sweepConnections env cids s heartbeat).All (fun x => x.1.roll = s.roll)
  | [], _, _ => rfl
  | cid :: cids, s, heartbeat => by
    unfold sweepConnections
    refine Out.all_unwrap (fun c _ => ?_)
    exact (sweepConnections_roll env cids _ _).mono (fun x hx => hx.trans (sweepConnection_roll env s cid c))

theorem sweep_trail {env : Env} (hio : ∀ n, env.io n = true) {s : Server} (hp : s.roll.Proper) :
    (s.sweep env).All (fun t => Roll.Trail s.roll (s.enrolments env .sweep) t.roll) := by
  unfold sweep
  refine Out.all_andThen (runDelayed_trail hio s.delayed { s with delayed := [] } hp) (fun t ht => ?_) (fun _ h => h)
  have ht : Roll.Trail s.roll (s.enrolments env .sweep) t.roll := ht
  have hrest : ∀ {u : Server}, u.roll = t.roll → Roll.Trail s.roll (s.enrolments env .sweep) u.roll := fun h => by
    rw [h]; exact ht
  refine Out.all_andThen (P := fun u => u.roll = t.roll) ?_ (fun u hu => ?_) (fun _ h => hrest h)
  · unfold sweepRooms
    exact keepEmpty_roll env _ _
  have hconn := sweepConnections_roll env u.connections.keys u false
  generalize sweepConnections env u.connections.keys u false = o at hconn
  cases o with
  | ok x =>
    obtain ⟨w, heartbeat⟩ := x
    have hconn : w.roll = u.roll := hconn
    have hbeat : (if heartbeat then w.rooms.values.foldl (fun s r => s.broadcast r (s.roomRtt r) none none) w else w).roll =
        t.roll := by
      split
      · exact (Sent.foldl (fun s r => sent_broadcast s r _ none none) _ w).roll.trans (hconn.trans hu)
      · exact hconn.trans hu
    have hlast := (hrest hbeat).trans (expire_trail _ env.now)
    rw [List.append_nil] at hlast
    exact hlast
  | err x => exact hrest (Eq.trans hconn hu)
  | halt h => trivial

/-- **Every command is a chain of moves with its registrations.** -/
theorem step_trail {env : Env} (hio : ∀ n, env.io n = true) {s t : Server} (hp : s.roll.Proper) {c : Command}
    (h : s.step env c = some t) : Roll.Trail s.roll (s.enrolments env c) t.roll := by
  cases c with
  | connected cid =>
    simp only [step] at h
    split at h
    · cases h
    · cases h
      exact .of_eq rfl
  | receive cid frame =>
    exact Out.all_of_state (P := fun t => Roll.Trail s.roll _ t.roll) (receive_trail hio hp cid frame) h
  | disconnect cid =>
    exact .of_eq (Out.all_of_state (P := fun t => t.roll = s.roll) (disconnect_roll env s cid) h)
  | sweep => exact Out.all_of_state (P := fun t => Roll.Trail s.roll _ t.roll) (sweep_trail hio hp) h

end Server
end Relay
