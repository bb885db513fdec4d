import GameRelay.Base
/-!
# Steps — every command is a chain of moves

`Executes` says which frame a command executes, in which state: at once, or from the delay queue.  `Does env s c a w`
is what the command `c`, run in `s`, may do: act `a` in the world `w`.  `step_chain` takes every step apart into such
acts, and a run is read through them (`Run.invariant`).
-/
namespace Relay

open Function (update)

variable [Extern]

namespace Server

/-- A frame of this connection is let through: it is open, its account's current one, and within its rate. -/
structure Accepts (env : Env) (s : Server) (cid : Nat) (c : Connection) : Prop where
  found : s.connections.get cid = some c
  isOpen : c.closing = false
  current : s.isCurrent cid c = true
  rate : (countFrame c env.now).messages ≤ s.config.maxMessagesPerSecond

/-- A text that parses to a validated message. -/
structure Valid (s : Server) (t : String) (v : Value) (m : String) : Prop where
  parses : Protocol.parse t = some v
  valid : Protocol.validate v s.config.maxRoomPlayers s.config.maxAccounts = true
  method : (v.idx "method").asStr = some m

/-- The command executes the frame of the connection, in this state. -/
inductive Executes (env : Env) (s : Server) : Command → Server → Nat → Frame → Prop
  | text {cid : Nat} {c : Connection} {t p m : String} {v : Value} (ha : s.Accepts env cid c) (hp : c.player = some p)
      (ht : t.utf8ByteSize ≤ s.config.maxPayloadBytes) (hv : s.Valid t v m)
      (hs : Protocol.size v ≤ s.config.maxPayloadBytes) (hm : m ≠ "authenticate")
      (hnow : s.config.sendDelayMs = 0 ∨ m = "Pong") :
      Executes env s (.receive cid (.text t)) (s.setConnection cid (countFrame c env.now)) cid (.text t)
  | binary {cid : Nat} {c : Connection} {p : String} {b : Bytes} (ha : s.Accepts env cid c) (hp : c.player = some p)
      (hb : b.length ≤ s.config.maxPayloadBytes) (hfit : s.config.fits b.length = true)
      (hnow : s.config.sendDelayMs = 0) :
      Executes env s (.receive cid (.binary b)) (s.setConnection cid (countFrame c env.now)) cid (.binary b)
  | due {pre post : List Delayed} {d : Delayed} {t : Server} {c : Connection} (hq : s.delayed = pre ++ d :: post)
      (ht : runDelayed env pre { s with delayed := [] } = .ok t) (hd : d.time ≤ env.now)
      (hc : t.connections.get d.cid = some c) (hrun : (t.setConnection d.cid (unqueue d c)).mayRun d c = true) :
      Executes env s .sweep (t.setConnection d.cid (unqueue d c)) d.cid d.frame

/-- The command authenticates the connection with this data, in this state. -/
inductive Authenticates (env : Env) (s : Server) : Command → Server → Nat → Value → Prop
  | mk {cid : Nat} {c : Connection} {t : String} {v : Value} (ha : s.Accepts env cid c) (hp : c.player = none)
      (ht : t.utf8ByteSize ≤ s.config.maxPayloadBytes) (hv : s.Valid t v "authenticate")
      (hs : Protocol.size v ≤ s.config.maxPayloadBytes) :
      Authenticates env s (.receive cid (.text t)) (s.setConnection cid (countFrame c env.now)) cid (v.idx "data")

/-- The account key and the password an authentication gives. -/
def authKey (d : Value) : String := ((d.idx "playerId").asStr).getD ""

def authPassword (d : Value) : String := ((d.idx "password").asStr).getD ""

/-- The authentication is an account's in memory, with its password. -/
def Returns (t : Server) (d : Value) (p : Player) : Prop :=
  t.players.get (authKey d) = some p ∧ p.password = authPassword d

/-- The authentication is a stored account's, with its password; none in memory has that key. -/
def Recalls (env : Env) (t : Server) (d : Value) (p : Player) : Prop :=
  t.players.get (authKey d) = none ∧ t.store.account (authKey d) env.now = .ok (some p) ∧ p.password = authPassword d

/-- The account of a connection, while it is that account's current one. -/
def Speaks (t : Server) (cid : Nat) (p : String) : Prop :=
  (t.connections.get cid).bind (·.player) = some p ∧ t.connectionOf p = some cid

/-- Where the message enters a room that is not live, the room's file is read back. -/
def Reads (env : Env) (t : Server) (v : Value) : Prop :=
  ∀ id, v.idx "method" = .str "enterRoom" → (v.idx "data").idx "roomId" = .str id → t.rooms.get id = none →
    ∃ r, t.store.load id true env.now = .ok (some r)

/-- What a command may do, and in which world. -/
inductive Does (env : Env) (s : Server) (c : Command) : Act → World → Prop
  | quiet {w : World} : Does env s c .quiet w
  | connected {w : World} {cid : Nat} (hc : c = .connected cid) : Does env s c (.connected cid) w
  | unlinked {w : World} {cid : Nat} (hc : c = .disconnect cid) : Does env s c (.unlinked cid) w
  | gone {w : World} {cid : Nat} {p : String} (hc : c = .disconnect cid) : Does env s c (.gone cid p) w
  | queued {w : World} {cid : Nat} {frame : Frame} {d : Delayed} (hc : c = .receive cid frame) :
      Does env s c (.queued d) w
  | requeued {w : World} {d : Delayed} (hc : c = .sweep) (hd : d ∈ s.delayed) : Does env s c (.queued d) w
  | expired {w : World} {id : String} : Does env s c (.expired id) w
  | bound {w : World} {t : Server} {cid : Nat} {d : Value} {p : Player} (ha : s.Authenticates env c t cid d)
      (hp : (t.expire env.now).Returns d p) : Does env s c (.bound cid p.id) w
  | created {t : Server} {cid : Nat} {d : Value} {id : String} (ha : s.Authenticates env c t cid d)
      (hd : ((d.get "playerId").isNone && (d.get "password").isNone) = true)
      (hnew : (t.expire env.now).inUse id = false) (hn : (t.expire env.now).world.seats id = none)
      (hfree : (t.expire env.now).players.size < (t.expire env.now).config.maxAccounts) :
      Does env s c (.recalled cid id) (t.expire env.now).world
  | recalled {t : Server} {cid : Nat} {d : Value} {p : Player} (ha : s.Authenticates env c t cid d)
      (hp : (t.expire env.now).Recalls env d p) : Does env s c (.recalled cid p.id) (t.expire env.now).world
  | departed {w : World} {t : Server} {cid : Nat} {d : Value} {p : Player} (ha : s.Authenticates env c t cid d)
      (hp : (t.expire env.now).Returns d p) : Does env s c (.departed p.id) w
  | text {t : Server} {cid : Nat} {txt p m : String} {v : Value} (he : s.Executes env c t cid (.text txt))
      (hv : t.Valid txt v m) (hp : t.Speaks cid p) (hread : t.Reads env v) : Does env s c (.text p v) t.world
  | binary {t : Server} {cid : Nat} {p : String} {b : Bytes} (he : s.Executes env c t cid (.binary b))
      (hp : t.Speaks cid p) : Does env s c (.binary p b) t.world
  | timedOut {w : World} (hc : c = .sweep) : Does env s c (.timedOut env.now) w
  | slept {w : World} {id : String} (hc : c = .sweep) : Does env s c (.slept id) w

/-- A chain of a command's acts, up to frames sent. -/
abbrev DoneBy (env : Env) (s : Server) (c : Command) (w w' : World) : Prop := Chain Move (s.Does env c) w w'

/-- The move of a message is what its handler does, up to frames sent. -/
def Handles (env : Env) (s : Server) (c : Command) (w w' : World) : Act → Prop
  | .text p v => ∃ t cid txt m u, s.Executes env c t cid (.text txt) ∧ t.Valid txt v m ∧ t.Speaks cid p ∧ t.world = w ∧
      (t.handle env cid p v).state = some u ∧ World.Sent u.world w'
  | _ => True

/-- A move, with the handler behind it. -/
def Played (env : Env) (s : Server) (c : Command) (a : Act) (w w' : World) : Prop := Move a w w' ∧ s.Handles env c w w' a

/-- A chain of a command's acts, with the handlers behind them. -/
abbrev PlayedBy (env : Env) (s : Server) (c : Command) (w w' : World) : Prop :=
  Chain (s.Played env c) (s.Does env c) w w'

theorem PlayedBy.done {env : Env} {s : Server} {c : Command} {w w' : World} (h : PlayedBy env s c w w') :
    DoneBy env s c w w' :=
  Relation.ReflTransGen.mono (fun _ _ ⟨a, ha, hm⟩ => ⟨a, ha, hm.1⟩) _ _ h

theorem PlayedBy.keyed {env : Env} {s : Server} {c : Command} {w w' : World} (h : PlayedBy env s c w w') (hk : w.Keyed) :
    w'.Keyed := h.invariant (fun _ _ _ _ hm h => hm.1.keyed h) hk

theorem PlayedBy.base {env : Env} {s : Server} {c : Command} {w w' : World} {config : Config}
    (h : PlayedBy env s c w w') (hb : w.Base config) : w'.Base config := hb.chain h.done

theorem PlayedBy.sent {env : Env} {s : Server} {c : Command} {t u : Server} (h : Sent t u) :
    PlayedBy env s c t.world u.world := .single .quiet ⟨Move.sent .quiet h, trivial⟩

theorem PlayedBy.of_eq {env : Env} {s : Server} {c : Command} {w w' : World} (h : w' = w) : PlayedBy env s c w w' := by
  rw [h]; exact .refl w

/-! Executing a frame. -/

theorem reportErr_all {P Q : Server → Prop} {cid : Nat} : ∀ {o : Out Server}, o.All P → (∀ s, P s → Q s) →
    (∀ s, P s → Q (s.error cid "storage_error")) → (reportErr cid o).All Q
  | .ok s, h, hok, _ => hok s h
  | .err s, h, _, herr => herr s h
  | .halt _, _, _, _ => trivial

/-- A message that enters no live room, and none on file, changes nothing. -/
theorem handle_unread {env : Env} {t : Server} {v : Value} (cid : Nat) (p : String) (h : ¬ t.Reads env v) :
    (t.handle env cid p v).All (fun u => World.Sent t.world u.world) := by
  unfold Reads at h
  push Not at h
  obtain ⟨id, hm, hid, hn, hload⟩ := h
  have hout : ∀ m, (v.idx "method").asStr = some m → m = "enterRoom" := fun m h => by
    rw [hm] at h; exact (Option.some.inj h).symm
  unfold handle
  refine Out.all_unwrap (fun m hmeth => ?_)
  obtain rfl := hout m hmeth
  simp only [if_neg (by decide : ¬ "enterRoom" = "openUdp"), if_neg (by decide : ¬ "enterRoom" = "closeUdp"),
    if_neg (by decide : ¬ "enterRoom" = "Pong"), if_neg (by decide : ¬ "enterRoom" = "getRooms"),
    if_neg (by decide : ¬ "enterRoom" = "getSavedRooms"), if_neg (by decide : ¬ "enterRoom" = "getPlayers"),
    if_neg (by decide : ¬ "enterRoom" = "changeName"), if_true]
  refine Out.all_unwrap (fun id' hid' => ?_)
  rw [hid] at hid'
  obtain rfl := Option.some.inj hid'
  unfold enter
  refine Out.all_unwrap (fun player _ => ?_)
  split
  · exact (sent_err t p _).world
  · rw [if_neg (by rw [IndexMap.contains_eq_false.2 hn]; exact Bool.false_ne_true)]
    cases hl : t.store.load id true env.now with
    | error e => exact .refl _
    | ok loaded =>
      cases loaded with
      | some r => exact absurd hl (hload r)
      | none =>
        dsimp only
        rw [hn]
        exact (sent_err t p _).world

/-- **Executing a frame is one act of its account.** -/
theorem dispatch_done {env : Env} {s : Server} {c : Command} {t : Server} {cid : Nat} {frame : Frame} {p : String}
    (he : s.Executes env c t cid frame) (hk : t.world.Keyed) (hp : t.Speaks cid p)
    (hf : ∀ txt, frame = .text txt → ∃ v m, t.Valid txt v m) {parsed : Option Value}
    (hparsed : ∀ txt v, frame = .text txt → parsed = some v → Protocol.parse txt = some v) :
    (t.dispatch env cid frame parsed).All (fun u => PlayedBy env s c t.world u.world) := by
  unfold dispatch
  rw [hp.1]
  have hc : (t.connectionOf p).isSome := by rw [hp.2]; rfl
  cases frame with
  | text txt =>
    obtain ⟨v, m, hv⟩ := hf txt rfl
    refine Out.all_unwrap (fun v' hv' => ?_)
    have hvv : v' = v := by
      cases hpd : parsed with
      | none => rw [hpd] at hv'; rw [hv.parses] at hv'; exact (Option.some.inj hv').symm
      | some v'' =>
        rw [hpd] at hv'
        have := hparsed txt v'' rfl hpd
        rw [hv.parses] at this
        cases hv'
        exact (Option.some.inj this).symm
    subst hvv
    by_cases hread : t.Reads env v'
    · have hmove : (t.handle env cid p v').All (fun u => Move (.text p v') t.world u.world ∧
          (t.handle env cid p v').state = some u) :=
        Out.all_iff_state.2 (fun u hu =>
          ⟨Out.all_of_state (P := fun u => Move _ _ u.world) (handle_move env t cid p v' hk hc hv.valid) hu, hu⟩)
      refine reportErr_all hmove (fun u ⟨hu, hu'⟩ => ?_) (fun u ⟨hu, hu'⟩ => ?_)
      · exact .single (.text he hv hp hread) ⟨hu, _, _, _, _, _, he, hv, hp, rfl, hu', .refl _⟩
      · exact .single (.text he hv hp hread)
          ⟨hu.then_sent (sent_error u cid _), _, _, _, _, _, he, hv, hp, rfl, hu', (sent_error u cid _).world⟩
    · refine reportErr_all (handle_unread cid p hread) (fun u hu => ?_) (fun u hu => ?_)
      · exact .single .quiet ⟨⟨_, .idle _ _, hu⟩, trivial⟩
      · exact .single .quiet ⟨⟨_, .idle _ _, hu.trans (sent_error u cid _).world⟩, trivial⟩
  | binary b =>
    refine reportErr_all (binary_move env t p b) (fun u hu => ?_) (fun u hu => ?_)
    · exact .single (.binary he hp) ⟨hu, trivial⟩
    · exact .single (.binary he hp) ⟨hu.then_sent (sent_error u cid _), trivial⟩
  | ping b => exact .refl _
  | pong b => exact .refl _

/-! Expiry. -/

omit [Extern] in
theorem expire_store (s : Server) (now : Nat) : (s.expire now).store = s.store := by
  have h : ∀ (ids : List String) (s : Server), (ids.foldl removeAccount s).store = s.store := by
    intro ids
    induction ids with
    | nil => intro s; rfl
    | cons id ids ih => intro s; exact ih (s.removeAccount id)
  exact h _ s

omit [Extern] in
/-- Without a session directory there is no stored account. -/
theorem not_recalls_of_disabled {env : Env} {t : Server} {d : Value} {p : Player} (h : t.store.enabled = false) :
    ¬ (t.expire env.now).Recalls env d p := by
  rintro ⟨-, hacc, -⟩
  unfold Store.account at hacc
  rw [expire_store, if_pos h] at hacc
  cases hacc

omit [Extern] in
theorem world_removeAccount (s : Server) (id : String) :
    (s.removeAccount id).world = { s.world with
      seats := update s.world.seats id none
      rooms := fun x => (s.world.rooms x).map (Room.dropReservation id) } := by
  unfold removeAccount
  rw [world_dropReservations]
  refine World.ext' rfl ?_ rfl rfl rfl rfl rfl rfl
  show (fun x => ((s.players.shiftRemove id).get x).map Player.seat) = update s.world.seats id none
  rw [IndexMap.get_shiftRemove_eq]
  funext x
  rw [Function.update_apply, Function.update_apply]
  split <;> rfl

/-- An account that may expire: offline, and on no fixed roster. -/
def Idle (w : World) (id : String) : Prop :=
  (∃ q, w.seats id = some q ∧ q.connection = none) ∧
    ∀ rid r, w.rooms rid = some r → r.fixed = true → ¬ id ∈ r.players

theorem removeAccounts_done {env : Env} {s : Server} {c : Command} : ∀ (ids : List String) (t : Server), ids.Nodup →
    (∀ id ∈ ids, Idle t.world id) → PlayedBy env s c t.world (ids.foldl removeAccount t).world
  | [], t, _, _ => .refl _
  | id :: ids, t, hn, hi => by
    rw [List.nodup_cons] at hn
    obtain ⟨⟨q, hq, hqc⟩, hf⟩ := hi id (List.mem_cons_self ..)
    have hstep : PlayedBy env s c t.world (t.removeAccount id).world := by
      rw [world_removeAccount]
      exact .single .expired ⟨.of_eq (.expired hq hqc hf), trivial⟩
    refine hstep.trans (removeAccounts_done ids (t.removeAccount id) hn.2 (fun x hx => ?_))
    obtain ⟨⟨q', hq', hqc'⟩, hf'⟩ := hi x (List.mem_cons_of_mem _ hx)
    have hne : x ≠ id := fun h => hn.1 (h ▸ hx)
    rw [world_removeAccount]
    refine ⟨⟨q', ?_, hqc'⟩, fun rid r hr hfix => ?_⟩
    · show update t.world.seats id none x = some q'
      rw [Function.update_of_ne hne]
      exact hq'
    · obtain ⟨r₀, hr₀, rfl⟩ := Option.map_eq_some_iff.1 hr
      exact hf' rid r₀ hr₀ hfix

omit [Extern] in
theorem players_keys {s : Server} (hk : s.world.Keyed) : s.players.values.map (·.id) = s.players.keys := by
  show (s.players.entries.map Prod.snd).map _ = s.players.entries.map Prod.fst
  rw [List.map_map]
  refine List.map_congr_left (fun e he => ?_)
  exact hk.seats (seats_eq (IndexMap.mem_entries.1 he))

omit [Extern] in
theorem removeAccounts_connections : ∀ (ids : List String) (s : Server),
    (ids.foldl removeAccount s).connections = s.connections
  | [], _ => rfl
  | id :: ids, s => removeAccounts_connections ids (s.removeAccount id)

theorem expire_done {env : Env} {s : Server} {c : Command} {t : Server} (hk : t.world.Keyed) (now : Nat) :
    PlayedBy env s c t.world (t.expire now).world := by
  refine removeAccounts_done _ t ?_ (fun id hid => ?_)
  · have : t.players.keys.Nodup := t.players.nodup
    rw [← players_keys hk] at this
    exact this.sublist (List.filter_sublist.map _)
  · obtain ⟨p, hp, rfl⟩ := List.mem_map.1 hid
    rw [List.mem_filter] at hp
    obtain ⟨k, hk'⟩ := IndexMap.mem_values.1 hp.1
    have hkey : p.id = k := hk.seats (seats_eq hk')
    have he := hp.2
    simp only [isExpired, Bool.and_eq_true, Bool.not_eq_true', List.any_eq_false] at he
    refine ⟨⟨p.seat, by rw [hkey]; exact seats_eq hk', Option.isNone_iff_eq_none.1 he.1.1⟩, fun rid r hr hf hmem => ?_⟩
    exact he.2 r (IndexMap.mem_values.2 ⟨rid, hr⟩) ⟨hf, IndexSet.contains_iff.2 hmem⟩

/-! Disconnecting. -/

theorem disconnect_done (env : Env) (s : Server) (cid : Nat) (hk : s.world.Keyed) :
    (s.disconnect env cid).All (fun u => PlayedBy env s (.disconnect cid) s.world u.world) := by
  unfold disconnect
  cases hc : s.connections.get cid with
  | none => exact .refl _
  | some c =>
    dsimp only
    have hpurge : Move .quiet s.world (s.purgeDelayed cid).world :=
      ⟨s.world, .idle _ _, s.links, _, .refl _, List.filter_sublist.subset, rfl⟩
    let t : Server := { s.purgeDelayed cid with connections := s.connections.shiftRemove cid }
    have ht : t.world = { (s.purgeDelayed cid).world with links := update (s.purgeDelayed cid).world.links cid none } := by
      refine World.ext' rfl rfl rfl rfl rfl rfl ?_ rfl
      funext x
      show ((s.connections.shiftRemove cid).get x).map Connection.link = update s.links cid none x
      rw [IndexMap.get_shiftRemove, Function.update_apply]
      split <;> rfl
    have hlink : (s.purgeDelayed cid).world.links cid = some c.link := links_get hc
    -- the connection is nobody's current one
    have hother : (∀ id, c.player = some id → ∀ p, s.players.get id = some p → p.connection ≠ some cid) →
        PlayedBy env s (.disconnect cid) s.world t.world := fun h => by
      refine (Chain.single .quiet ⟨hpurge, trivial⟩).trans (.single (.unlinked rfl) ⟨ht ▸ .of_eq (.unlinked hlink ?_), trivial⟩)
      rintro id q hid hq
      obtain ⟨p, hp, rfl⟩ := Option.map_eq_some_iff.1 hq
      exact h id hid p hp
    split
    · rename_i hp
      exact hother (fun id h => by rw [hp] at h; cases h)
    · rename_i id hid
      split
      · rename_i hn
        exact hother (fun id' h p hp => by rw [hid] at h; cases h; rw [hn] at hp; cases hp)
      · rename_i p hp
        split
        · rename_i hcur
          generalize hpl : ({ p with connection := none, offline := some env.now } : Player) = pl
          have hseat : pl.seat = { p.seat with connection := none } := by rw [← hpl]; rfl
          have hw : (t.setPlayer id pl).world = { (s.purgeDelayed cid).world with
              seats := update (s.purgeDelayed cid).world.seats id (some { p.seat with connection := none })
              links := update (s.purgeDelayed cid).world.links cid none } := by
            rw [world_setPlayer, hseat, ht]
          have hkt : (t.setPlayer id pl).world.Keyed := by
            rw [hw]
            refine ⟨fun {x q} hx => ?_, hk.rooms⟩
            rcases update_some hx with ⟨rfl, h⟩ | ⟨-, h⟩
            · cases h; exact (hk.seats (seats_eq hp) :)
            · exact hk.seats h
          have hl := leave_left env (t.setPlayer id pl) id true hkt
          have hdone : ∀ u : Server, (∃ w, (t.setPlayer id pl).world.Left id true w ∧ w.Sent u.world) →
              PlayedBy env s (.disconnect cid) s.world u.world := by
            rintro u ⟨w, hleft, hsent⟩
            rw [hw] at hleft
            exact (Chain.single .quiet ⟨hpurge, trivial⟩).trans
              (.single (.gone rfl) ⟨⟨w, .gone hlink hid (seats_eq hp) hcur hleft, hsent⟩, trivial⟩)
          split
          · rename_i u hu
            exact hdone u (Out.all_iff_state.1 hl u (congrArg Out.state hu))
          · rename_i u hu
            exact hdone u (Out.all_iff_state.1 hl u (congrArg Out.state hu))
          · trivial
        · rename_i hcur
          exact hother (fun id' h p' hp' => by rw [hid] at h; cases h; rw [hp] at hp'; cases hp'; exact hcur)

/-! Authenticating. -/

omit [Extern] in
/-- An account read from the store sits nowhere. -/
theorem account_shape {st : Store} {key : String} {now : Nat} {p : Player} (h : st.account key now = .ok (some p)) :
    p.connection = none ∧ p.room = none := by
  unfold Store.account at h
  repeat' split at h
  all_goals cases h
  exact ⟨rfl, rfl⟩

theorem bind_world (env : Env) (s : Server) (cid : Nat) (id : String) (created : Bool) {q : Seat} {l : Link}
    (hq : s.world.seats id = some q) (hl : s.world.links cid = some l) :
    (s.bind env cid id created).All (fun u => World.Sent
      { s.world with
        seats := update s.world.seats id (some { q with connection := some cid })
        links := update s.world.links cid (some { l with player := some id }) } u.world) := by
  unfold bind
  refine Out.all_unwrap (fun p hp => ?_)
  have hqp : q = p.seat := by rw [seats_eq hp] at hq; exact (Option.some.inj hq).symm
  generalize hpl : ({ p with connection := some cid, offline := none, rtt := none } : Player) = pl
  have hseat : pl.seat = { q with connection := some cid } := by rw [← hpl, hqp]; rfl
  dsimp only
  refine Out.all_unwrap (fun c hc => ?_)
  have hlc : l = c.link := by
    rw [show s.world.links cid = some c.link from links_get hc] at hl; exact (Option.some.inj hl).symm
  generalize hcl : ({ c with player := some id } : Connection) = c'
  have hlink : c'.link = { l with player := some id } := by rw [← hcl, hlc]; rfl
  have hw : ((s.setPlayer id pl).setConnection cid c').world = { s.world with
      seats := update s.world.seats id (some { q with connection := some cid })
      links := update s.world.links cid (some { l with player := some id }) } := by
    rw [world_setConnection, world_setPlayer, hseat, hlink]
  split
  · rename_i st hst
    show World.Sent _ (Server.world _)
    rw [world_saveAccount hst, hw]
    exact .refl _
  · rename_i st hst
    generalize hs₁ : ({ (s.setPlayer id pl).setConnection cid c' with store := st } : Server) = s₁
    have hw₁ : s₁.world = { s.world with
        seats := update s.world.seats id (some { q with connection := some cid })
        links := update s.world.links cid (some { l with player := some id }) } := by
      rw [← hs₁, world_saveAccount hst, hw]
    rw [← hw₁]
    have hgreet : ∀ v w, Sent s₁ (Server.sendC (if created then s₁.sendC cid v else s₁) cid w) := fun v w => by
      split
      · exact (sent_sendC s₁ cid v).trans (sent_sendC _ cid w)
      · exact sent_sendC s₁ cid w
    split
    · exact ((hgreet _ _).trans (sent_sendC _ cid _)).world
    · exact (hgreet _ _).world

/-- Replacing a session closes the old connection. -/
theorem replaceSession_world (s : Server) (p : Player) :
    World.Sent { s.world with links := closeLink s.world.links p.connection } (s.replaceSession p).world := by
  unfold replaceSession
  split
  · rename_i old hold
    have hs := sent_close s old 1008 "Session replaced"
    refine ⟨_, _, Kept.closed hs.2 (fun c b hc hb => ?_), ?_, World.ext' ?_ ?_ ?_ ?_ ?_ ?_ rfl rfl⟩
    · rw [hold] at hc
      cases hc
      obtain ⟨c', hc', rfl⟩ := Option.map_eq_some_iff.1 hb
      exact closing_close s old _ _ hc'
    · show List.filter _ (s.close old 1008 "Session replaced").delayed ⊆ s.delayed
      rw [show (s.close old 1008 "Session replaced").delayed = s.delayed from congrArg Core.delayed hs.1]
      exact List.filter_sublist.subset
    all_goals simp only [Server.world, purgeDelayed, hs.1]
  · rename_i hold
    have : closeLink s.world.links p.connection = s.world.links := by
      funext x; unfold closeLink; rw [hold, if_neg (by intro h; cases h)]
    rw [this]
    exact .refl _

omit [Extern] in
theorem renamed_seat (p : Player) (d : Value) : (renamed p d).seat = p.seat := by unfold renamed; split <;> rfl

/-- An account in memory returns: its old connection closes and the new one becomes its current. -/
theorem rebind_done {env : Env} {s : Server} {c : Command} {t u : Server} {cid : Nat} {d : Value} {p p' : Player}
    {l : Link} (ha : s.Authenticates env c t cid d) (hp : (t.expire env.now).Returns d p)
    (hp' : u.players.get p.id = some p') (hl : u.world.links cid = some l) (hlp : l.player = none) :
    (bind env ((u.replaceSession p').setPlayer p.id (renamed p' d)) cid p.id false).All
      (fun u' => PlayedBy env s c u.world u'.world) := by
  have hq : u.world.seats p.id = some p'.seat := seats_eq hp'
  have hrep := replaceSession_world u p'
  obtain ⟨links, queue, hk, hqueue, hw⟩ := hrep
  have hset : ((u.replaceSession p').setPlayer p.id (renamed p' d)).world =
      { u.world with links := links, queue := queue } := by
    rw [world_setPlayer, renamed_seat, hw]
    refine World.ext' rfl ?_ rfl rfl rfl rfl rfl rfl
    show update u.world.seats p.id (some p'.seat) = u.world.seats
    rw [← hq, Function.update_eq_self]
  have hclose : closeLink u.world.links p'.connection cid =
      some (if p'.connection = some cid then { l with closing := true } else l) := by
    unfold closeLink; rw [hl]; split <;> rfl
  obtain ⟨l', hl', hkeep⟩ := hk.get hclose
  have hbind := bind_world env ((u.replaceSession p').setPlayer p.id (renamed p' d)) cid p.id false (q := p'.seat)
    (l := l') (by rw [hset]; exact hq) (by rw [hset]; exact hl')
  refine hbind.mono (fun u' hu' => ?_)
  rw [hset] at hu'
  refine .single (.bound ha hp) ⟨⟨_, .bound hl hlp hq, World.Sent.trans ?_ hu'⟩, trivial⟩
  refine ⟨_, queue, hk.update_both ?_, hqueue, rfl⟩
  refine ⟨rfl, ?_, fun hc => hkeep.closing ?_, ?_, ?_⟩
  · have hudp := hkeep.udp
    split at hudp <;> exact hudp
  · split
    · rfl
    · exact hc
  · have hin := hkeep.incoming
    split at hin <;> exact hin
  · have hout := hkeep.outgoing
    split at hout <;> exact hout

/-- An account that is not in memory, or lies offline there, comes from the store. -/
theorem recall_done {env : Env} {s : Server} {c : Command} {t u : Server} {cid : Nat} {d : Value} {p : Player}
    {l : Link} (ha : s.Authenticates env c t cid d) (hp : (t.expire env.now).Recalls env d p)
    (hu : u.world = (t.expire env.now).world ∨ u = (t.expire env.now).setPlayer p.id p)
    (hl : u.world.links cid = some l) (hlp : l.player = none) :
    (bind env ((u.replaceSession p).setPlayer p.id (renamed p d)) cid p.id false).All
      (fun u' => PlayedBy env s c (t.expire env.now).world u'.world) := by
  obtain ⟨hconn, hroom⟩ := account_shape hp.2.1
  have hrep : u.replaceSession p = u := by unfold replaceSession; rw [hconn]
  have hseat : (renamed p d).seat = ⟨p.id, none, none, p.password⟩ := by
    rw [renamed_seat]; unfold Player.seat; rw [hconn, hroom]
  rw [hrep]
  have hbind := bind_world env (u.setPlayer p.id (renamed p d)) cid p.id false (q := ⟨p.id, none, none, p.password⟩) (l := l)
    (by rw [world_setPlayer, hseat]; exact Function.update_self ..) (by rw [world_setPlayer]; exact hl)
  refine hbind.mono (fun u' hu' => ?_)
  rw [world_setPlayer] at hu'
  dsimp only at hu'
  rw [Function.update_idem] at hu'
  have hl' : (t.expire env.now).world.links cid = some l := by
    rcases hu with hu | rfl
    · rw [← hu]; exact hl
    · exact hl
  refine .single (.recalled ha hp) ⟨⟨_, @Effect.recalled _ _ cid p.id p.password l hl' hlp, ?_⟩, trivial⟩
  rcases hu with hu | rfl
  · rw [hu] at hu'; exact hu'
  · rw [world_setPlayer] at hu'
    dsimp only at hu'
    rw [Function.update_idem] at hu'
    exact hu'

theorem reconnect_done {env : Env} {s : Server} {c : Command} {t : Server} {cid : Nat} {d : Value} {p : Player}
    {l : Link} (ha : s.Authenticates env c t cid d) (hk : (t.expire env.now).world.Keyed)
    (hp : (t.expire env.now).Returns d p ∨ (t.expire env.now).Recalls env d p)
    (hl : (t.expire env.now).world.links cid = some l) (hlp : l.player = none) :
    ((t.expire env.now).reconnect env cid p d).All (fun u => PlayedBy env s c (t.expire env.now).world u.world) := by
  generalize ht₁ : t.expire env.now = t₁ at *
  unfold reconnect
  dsimp only
  rcases hp with hp | hp
  · have hkey : p.id = authKey d := hk.seats (seats_eq hp.1)
    have hget : t₁.players.get p.id = some p := by rw [hkey]; exact hp.1
    rw [if_pos (IndexMap.contains_iff.2 ⟨p, hget⟩)]
    split
    · rename_i hfix
      -- it leaves the fixed game it is still inside first
      refine Out.all_andThen (P := fun u => ∃ w, t₁.world.Left p.id true w ∧ w.Sent u.world)
        (leave_left env t₁ p.id true hk) (fun u hu => ?_) (fun u hu => ?_)
      · obtain ⟨w, hleft, hsent⟩ := hu
        have hdone : PlayedBy env s c t₁.world u.world :=
          .single (.departed ha (ht₁ ▸ hp)) ⟨⟨w, .departed hleft, hsent⟩, trivial⟩
        have hlw : w.links cid = some l := by rw [hleft.frame.2.2]; exact hl
        obtain ⟨links, queue, hkl, -, hw⟩ := hsent
        obtain ⟨l', hl', hkeep⟩ := hkl.get hlw
        have hlu : u.world.links cid = some l' := by rw [hw]; exact hl'
        refine Out.all_unwrap (fun p' hp' => ?_)
        exact (rebind_done ha (ht₁ ▸ hp) hp' hlu (hkeep.1.trans hlp)).mono (fun u' hu' => hdone.trans hu')
      · obtain ⟨w, hleft, hsent⟩ := hu
        exact .single (.departed ha (ht₁ ▸ hp)) ⟨⟨w, .departed hleft, hsent⟩, trivial⟩
    · exact rebind_done ha (ht₁ ▸ hp) hget hl hlp
  · have hroom : p.room = none := (account_shape hp.2.1).2
    rw [hroom]
    simp only [Option.bind_none, Option.any_none, Bool.false_eq_true, if_false]
    subst ht₁
    by_cases hcon : (t.expire env.now).players.contains p.id = true
    · rw [if_pos hcon]
      exact recall_done ha hp (.inl rfl) hl hlp
    · rw [if_neg hcon]
      exact recall_done ha hp (.inr rfl) hl hlp

theorem auth_done {env : Env} {s : Server} {c : Command} {t : Server} {cid : Nat} {d : Value} {l : Link}
    (ha : s.Authenticates env c t cid d) (hk : t.world.Keyed) (hl : t.world.links cid = some l) (hlp : l.player = none) :
    (t.auth env cid d).All (fun u => PlayedBy env s c t.world u.world) := by
  have hexp : PlayedBy env s c t.world (t.expire env.now).world := expire_done hk env.now
  have hk₁ : (t.expire env.now).world.Keyed := PlayedBy.keyed hexp hk
  have hl₁ : (t.expire env.now).world.links cid = some l := by
    rw [show (t.expire env.now).world.links = t.links from links_congr (removeAccounts_connections _ t)]
    exact hl
  unfold auth
  dsimp only
  split
  · rename_i hanon
    split
    · exact hexp.trans (PlayedBy.sent ((sent_error _ cid _).trans (sent_close _ cid _ _)))
    · rename_i hfree
      unfold drawId
      dsimp only
      split
      · trivial
      rename_i huse
      have huse : (t.expire env.now).inUse (env.uuid (t.expire env.now).draws).text = false := by simpa using huse
      obtain ⟨hnp, -, -, -⟩ := inUse_eq_false huse
      generalize (env.uuid (t.expire env.now).draws).text = id at *
      generalize hpl : Player.new id (env.secret (t.expire env.now).draws) _ env.now = pl
      have hseat : pl.seat = ⟨id, none, none, env.secret (t.expire env.now).draws⟩ := by rw [← hpl]; rfl
      generalize hs₁ : ({ t.expire env.now with
        draws := (t.expire env.now).draws + 1, drawn := id :: (t.expire env.now).drawn } : Server) = s₁
      have hw₁ : s₁.world = (t.expire env.now).world := by rw [← hs₁]; rfl
      have hbind := bind_world env (s₁.setPlayer id pl) cid id true
        (q := ⟨id, none, none, env.secret (t.expire env.now).draws⟩) (l := l)
        (by rw [world_setPlayer, hseat]; exact Function.update_self ..) (by rw [world_setPlayer, hw₁]; exact hl₁)
      have hnone : (t.expire env.now).world.seats id = none := by
        show ((t.expire env.now).players.get id).map Player.seat = none
        rw [hnp]; rfl
      have hdoes : s.Does env c (.recalled cid id) (t.expire env.now).world :=
        .created ha hanon huse hnone (Nat.lt_of_not_le hfree)
      refine hbind.mono (fun u hu => hexp.trans (.single hdoes
        ⟨⟨_, @Effect.recalled _ _ cid id (env.secret (t.expire env.now).draws) l hl₁ hlp, ?_⟩, trivial⟩))
      rw [world_setPlayer, hw₁] at hu
      dsimp only at hu
      rw [Function.update_idem] at hu
      exact hu
  · split
    · exact hexp
    · exact hexp.trans (PlayedBy.sent (sent_authenticationFailed _ cid))
    · rename_i p hret
      split
      · exact hexp.trans (PlayedBy.sent (sent_authenticationFailed _ cid))
      · rename_i hpw
        have hpw : p.password = authPassword d := not_not.1 hpw
        refine (reconnect_done ha hk₁ ?_ hl₁ hlp).mono (fun u hu => hexp.trans hu)
        unfold retainedAccount at hret
        split at hret
        · rename_i p' hp'
          cases hret
          exact .inl ⟨hp', hpw⟩
        · rename_i hn
          split at hret
          · exact .inr ⟨hn, hret, hpw⟩
          · cases hret

/-! Receiving a frame. -/

omit [Extern] in
theorem world_setConnection_same {s : Server} {cid : Nat} {c c' : Connection} (h : s.connections.get cid = some c)
    (hl : c'.link = c.link) : (s.setConnection cid c').world = s.world := by
  have hc : some c.link = s.world.links cid := (links_get h).symm
  rw [world_setConnection, hl, hc, Function.update_eq_self]

/-- A frame is executed now, or queued as it is. -/
theorem submit_done {env : Env} {s : Server} {cid : Nat} {frame : Frame} {t : Server} {p : String}
    {roomScoped immediate : Bool} {parsed : Option Value}
    (hnow : s.config.sendDelayMs = 0 ∨ immediate = true → s.Executes env (.receive cid frame) t cid frame)
    (ht : t.config = s.config) (hk : t.world.Keyed) (hp : t.Speaks cid p)
    (hf : ∀ txt, frame = .text txt → ∃ v m, t.Valid txt v m)
    (hparsed : ∀ txt v, frame = .text txt → parsed = some v → Protocol.parse txt = some v) :
    (t.submit env cid p frame roomScoped immediate parsed).All
      (fun u => PlayedBy env s (.receive cid frame) t.world u.world) := by
  unfold submit
  split
  · refine Out.all_unwrap (fun c hc => ?_)
    split
    · exact PlayedBy.sent (sent_close t cid _ _)
    · refine Out.all_unwrap (fun player _ => ?_)
      generalize hd : Delayed.mk (env.now + t.config.sendDelayMs) cid player.version roomScoped frame frame.len = d
      have hval : ∀ x, d.frame = .text x → ∃ v, Protocol.parse x = some v ∧
          Protocol.validate v t.world.config.maxRoomPlayers t.world.config.maxAccounts = true := fun x hx => by
        obtain ⟨v, m, hv⟩ := hf x (by rw [← hx, ← hd])
        exact ⟨v, hv.parses, hv.valid⟩
      generalize hcl : ({ c with delayed := c.delayed + frame.len, pending := c.pending + 1 } : Connection) = c'
      have hw : (t.setConnection cid c').world = t.world := world_setConnection_same hc (by rw [← hcl]; rfl)
      have hq : ({ t.setConnection cid c' with delayed := t.delayed ++ [d] } : Server).world =
          { t.world with queue := t.world.queue ++ [d] } := by
        rw [← hw]; rfl
      show PlayedBy env s _ t.world (Server.world _)
      rw [hq]
      exact .single (.queued rfl) ⟨.of_eq (.queued hval), trivial⟩
  · rename_i hnd
    refine dispatch_done (hnow ?_) hk hp hf hparsed
    simp only [Bool.and_eq_true, decide_eq_true_eq, Bool.not_eq_true', not_and, Bool.not_eq_false] at hnd
    rw [ht] at hnd
    by_cases h0 : s.config.sendDelayMs = 0
    · exact .inl h0
    · exact .inr (hnd (by omega))

theorem receive_done (env : Env) (s : Server) (cid : Nat) (frame : Frame) (hk : s.world.Keyed) :
    (s.receive env cid frame).All (fun u => PlayedBy env s (.receive cid frame) s.world u.world) := by
  unfold receive
  split
  · exact .refl _
  rename_i c hc
  split
  · exact .refl _
  rename_i hopen
  simp only [Bool.or_eq_true, Bool.not_eq_true', not_or, Bool.not_eq_true, Bool.not_eq_false] at hopen
  dsimp only
  have hw : (s.setConnection cid (countFrame c env.now)).world = s.world := world_setConnection_same hc rfl
  split
  · rw [← hw]; exact PlayedBy.sent (sent_close _ cid _ _)
  rename_i hrate
  have ha : s.Accepts env cid c := ⟨hc, hopen.1, hopen.2, Nat.le_of_not_lt hrate⟩
  have hget : (s.setConnection cid (countFrame c env.now)).connections.get cid = some (countFrame c env.now) :=
    IndexMap.get_insert_self _ _ _
  have hspeaks : ∀ p, c.player = some p → (s.setConnection cid (countFrame c env.now)).Speaks cid p := fun p hp => by
    refine ⟨by rw [hget]; exact hp, ?_⟩
    have := hopen.2
    unfold isCurrent at this
    rw [hp] at this
    exact of_decide_eq_true this
  have hkt : (s.setConnection cid (countFrame c env.now)).world.Keyed := by rw [hw]; exact hk
  split
  · rw [← hw]; exact PlayedBy.sent (sent_raw _ cid _)
  · exact PlayedBy.of_eq hw
  · rename_i txt
    split
    · rw [← hw]; exact PlayedBy.sent (sent_close _ cid _ _)
    rename_i hsize
    unfold receiveText
    split
    · rw [← hw]; exact PlayedBy.sent (sent_error _ cid _)
    rename_i v hparse
    split
    · rw [← hw]; exact PlayedBy.sent (sent_error _ cid _)
    rename_i hvalid
    split
    · rw [← hw]; exact PlayedBy.sent (sent_error _ cid _)
    rename_i hlen
    refine Out.all_unwrap (fun m hm => ?_)
    have hv : s.Valid txt v m := ⟨hparse, eq_true_of_ne_false hvalid, hm⟩
    split
    · rename_i hp
      split
      · rename_i hauth
        subst hauth
        rw [← hw]
        have hd := auth_done (l := ⟨none, false, c.udp, c.udpIncomingRate, c.udpOutgoingRate⟩)
          (.mk ha hp (Nat.le_of_not_lt hsize) hv (Nat.le_of_not_lt hlen)) hkt
          (by rw [hw]; show (s.connections.get cid).map _ = _; rw [hc, ← hopen.1, ← hp]; rfl) rfl
        exact reportErr_all hd (fun u hu => hu) (fun u hu => hu.trans (PlayedBy.sent (sent_error u cid _)))
      · rw [← hw]; exact PlayedBy.sent (sent_error _ cid _)
    · rename_i p hp
      split
      · rw [← hw]; exact PlayedBy.sent (sent_error _ cid _)
      rename_i hne
      rw [← hw]
      refine submit_done (fun hnow => ?_) rfl hkt (hspeaks p hp) (fun x hx => ?_) (fun x v' hx hv' => ?_)
      · exact .text ha hp (Nat.le_of_not_lt hsize) hv (Nat.le_of_not_lt hlen) hne (hnow.imp id of_decide_eq_true)
      · cases hx; exact ⟨v, m, hv.parses, hv.valid, hv.method⟩
      · cases hx; cases hv'; exact hparse
  · rename_i b
    split
    · rw [← hw]; exact PlayedBy.sent (sent_close _ cid _ _)
    rename_i hsize
    split
    · rw [← hw]; exact PlayedBy.sent (sent_error _ cid _)
    rename_i p hp
    split
    · rw [← hw]; exact PlayedBy.sent (sent_error _ cid _)
    rename_i hfit
    rw [← hw]
    refine submit_done (fun hnow => ?_) rfl hkt (hspeaks p hp) (fun x hx => nomatch hx) (fun x _ hx => nomatch hx)
    refine .binary ha hp (Nat.le_of_not_lt hsize) (eq_true_of_ne_false hfit) ?_
    rcases hnow with h | h
    · exact h
    · cases h

/-! Maintenance. -/

theorem runDelayed_append (env : Env) : ∀ (a b : List Delayed) (s : Server),
    runDelayed env (a ++ b) s = Out.andThen (runDelayed env a s) (runDelayed env b)
  | [], b, s => rfl
  | d :: a, b, s => by
    rw [List.cons_append, runDelayed, runDelayed]
    split
    · exact runDelayed_append env a b _
    · split
      · exact runDelayed_append env a b _
      · dsimp only
        split
        · cases dispatch env _ d.cid d.frame none with
          | ok t => exact runDelayed_append env a b t
          | err t => rfl
          | halt h => rfl
        · exact runDelayed_append env a b _

omit [Extern] in
theorem mayRun_speaks {s : Server} {d : Delayed} {c c' : Connection} (h : s.mayRun d c = true)
    (hc : s.connections.get d.cid = some c') (hp : c'.player = c.player) : ∃ p, s.Speaks d.cid p := by
  unfold mayRun at h
  rw [Option.any_eq_true] at h
  obtain ⟨player, hpl, hcond⟩ := h
  obtain ⟨p, hcp, hget⟩ := Option.bind_eq_some_iff.1 hpl
  simp only [Bool.and_eq_true, decide_eq_true_eq] at hcond
  refine ⟨p, by rw [hc]; exact hp.trans hcp, ?_⟩
  unfold connectionOf
  rw [hget]
  exact hcond.1.2

/-- **The delayed frames that are due are executed in order**, each as an act of its account. -/
theorem runDelayed_done {env : Env} {s : Server} (hq : s.world.Queued) : ∀ (post pre : List Delayed) (t : Server),
    s.delayed = pre ++ post → runDelayed env pre { s with delayed := [] } = .ok t → t.world.Base s.config →
    (runDelayed env post t).All (fun u => PlayedBy env s .sweep t.world u.world)
  | [], _, t, _, _, _ => .refl _
  | d :: post, pre, t, hs, ht, hb => by
    have hsplit : s.delayed = (pre ++ [d]) ++ post := by rw [hs, List.append_assoc]; rfl
    have hone : ∀ u, runDelayed env [d] t = .ok u → runDelayed env (pre ++ [d]) { s with delayed := [] } = .ok u :=
      fun u hu => by rw [runDelayed_append, ht]; exact hu
    have hval : ∀ txt, d.frame = .text txt → ∃ v, Protocol.parse txt = some v ∧
        Protocol.validate v s.config.maxRoomPlayers s.config.maxAccounts = true :=
      hq d (by show d ∈ s.delayed; rw [hs]; exact List.mem_append_right _ (List.mem_cons_self ..))
    have hcfg : t.config = s.config := hb.config
    unfold runDelayed
    split
    · -- not due: it stays queued
      rename_i hlt
      have hq' : PlayedBy env s .sweep t.world ({ t with delayed := t.delayed ++ [d] } : Server).world := by
        refine .single (.requeued (d := d) rfl (by rw [hs]; exact List.mem_append_right _ (List.mem_cons_self ..)))
          ⟨.of_eq (.queued ?_), trivial⟩
        show ∀ txt, d.frame = .text txt → ∃ v, _ ∧ Protocol.validate v t.config.maxRoomPlayers t.config.maxAccounts = true
        rw [hcfg]
        exact hval
      refine (runDelayed_done hq post _ _ hsplit (hone _ ?_) (PlayedBy.base hq' hb)).mono (fun u hu => hq'.trans hu)
      rw [runDelayed, if_pos hlt, runDelayed]
    · rename_i hdue
      split
      · rename_i hn
        refine runDelayed_done hq post _ t hsplit (hone _ ?_) hb
        rw [runDelayed, if_neg hdue, hn, runDelayed]
      · rename_i c hc
        dsimp only
        have hw : (t.setConnection d.cid (unqueue d c)).world = t.world := world_setConnection_same hc rfl
        have hget : (t.setConnection d.cid (unqueue d c)).connections.get d.cid = some (unqueue d c) :=
          IndexMap.get_insert_self _ _ _
        split
        · rename_i hrun
          obtain ⟨p, hp⟩ := mayRun_speaks hrun hget rfl
          have hex : s.Executes env .sweep (t.setConnection d.cid (unqueue d c)) d.cid d.frame :=
            .due hs ht (Nat.le_of_not_lt hdue) hc hrun
          have hno : ∀ txt v, d.frame = .text txt → (none : Option Value) = some v → Protocol.parse txt = some v :=
            fun _ _ _ h => nomatch h
          have hdisp := dispatch_done hex (by rw [hw]; exact hb.keyed) hp (fun txt htxt => ?_) hno
          · generalize hres : dispatch env (t.setConnection d.cid (unqueue d c)) d.cid d.frame none = o at hdisp
            cases o with
            | ok u =>
              rw [← hw]
              have hu : PlayedBy env s .sweep (t.setConnection d.cid (unqueue d c)).world u.world := hdisp
              have hbu : u.world.Base s.config := PlayedBy.base hu (by rw [hw]; exact hb)
              refine (runDelayed_done hq post _ u hsplit (hone _ ?_) hbu).mono (fun u' hu' => hu.trans hu')
              rw [runDelayed, if_neg hdue, hc]
              dsimp only
              rw [if_pos hrun, hres]
              rfl
            | err u => rw [← hw]; exact hdisp
            | halt h => trivial
          · obtain ⟨v, hv, hvalid⟩ := hval txt htxt
            obtain ⟨m, hm⟩ := Protocol.validate_method hvalid
            refine ⟨v, m, hv, ?_, hm⟩
            show Protocol.validate v t.config.maxRoomPlayers t.config.maxAccounts = true
            rw [hcfg]
            exact hvalid
        · rename_i hrun
          rw [← hw]
          refine runDelayed_done hq post _ _ hsplit (hone _ ?_) (by rw [hw]; exact hb)
          rw [runDelayed, if_neg hdue, hc]
          dsimp only
          rw [if_neg hrun, runDelayed]

theorem keepEmpty_done {env : Env} {s : Server} : ∀ (ids : List String) (t : Server), t.world.Keyed →
    (keepEmpty env ids t).All (fun u => PlayedBy env s .sweep t.world u.world)
  | [], t, _ => .refl _
  | id :: ids, t, hk => by
    unfold keepEmpty
    refine Out.all_unwrap (fun r hr => ?_)
    have hrid : r.id = id := hk.rooms (show t.world.rooms id = some r from hr)
    have hstep : PlayedBy env s .sweep t.world ((t.removeRoom id).keep env r).world := by
      rcases keep_world env (t.removeRoom id) r with ⟨hp, ha, w, hw, hsent⟩ | hw
      · rw [world_removeRoom] at hw
        exact .single (.slept rfl) ⟨⟨w, .slept hr hp ha hw, hsent⟩, trivial⟩
      · refine PlayedBy.of_eq ?_
        rw [hw, world_removeRoom, hrid]
        dsimp only
        have hsome : some r = t.world.rooms id := hr.symm
        rw [Function.update_idem, hsome, Function.update_eq_self]
    have hk' := PlayedBy.keyed hstep hk
    exact (keepEmpty_done ids _ hk').mono (fun u hu => hstep.trans hu)

theorem sweepRooms_done (env : Env) (s t : Server) (hk : t.world.Keyed) :
    (t.sweepRooms env).All (fun u => PlayedBy env s .sweep t.world u.world) := by
  unfold sweepRooms
  dsimp only
  generalize ht' : ({ t with rooms := t.rooms.mapVals (fun _ r => timeoutUpload env.now r) } : Server) = t'
  have hw : t'.world = { t.world with rooms := fun x => (t.world.rooms x).map (timeoutUpload env.now) } := by
    rw [← ht']
    exact World.ext' rfl rfl (IndexMap.get_mapVals_eq _ _) rfl rfl rfl rfl rfl
  have hstep : PlayedBy env s .sweep t.world t'.world := by
    rw [hw]
    exact .single (.timedOut rfl) ⟨.of_eq .timedOut, trivial⟩
  have hk' := PlayedBy.keyed hstep hk
  exact (keepEmpty_done _ t' hk').mono (fun u hu => hstep.trans hu)

theorem sweepConnection_sent {env : Env} {s : Server} {cid : Nat} {c : Connection}
    (hc : s.connections.get cid = some c) : World.Sent s.world (s.sweepConnection env cid c).1.world := by
  unfold sweepConnection
  dsimp only
  split
  · split
    · exact (sent_close s cid _ _).world
    · exact .refl _
  · split
    · exact (sent_close s cid _ _).world
    · split
      · split
        · have hw : (s.setConnection cid { c with lastPing := env.now, ping := some env.now }).world = s.world :=
            world_setConnection_same hc rfl
          rw [← hw]
          exact (sent_sendC _ cid _).world
        · have hw : (s.setConnection cid { c with lastPing := env.now }).world = s.world :=
            world_setConnection_same hc rfl
          show s.world.Sent (s.setConnection cid { c with lastPing := env.now }).world
          rw [hw]
          exact .refl _
      · exact .refl _

theorem sweepConnections_sent (env : Env) : ∀ (cids : List Nat) (s : Server) (heartbeat : Bool),
    (sweepConnections env cids s heartbeat).All (fun u => World.Sent s.world u.1.world)
  | [], s, _ => World.Sent.refl s.world
  | cid :: cids, s, heartbeat => by
    unfold sweepConnections
    refine Out.all_unwrap (fun c hc => ?_)
    exact (sweepConnections_sent env cids _ _).mono (fun u hu => (sweepConnection_sent hc).trans hu)

theorem sweep_done (env : Env) (s : Server) (hb : s.world.Base s.config) :
    (s.sweep env).All (fun u => PlayedBy env s .sweep s.world u.world) := by
  unfold sweep
  have h₀ : PlayedBy env s .sweep s.world ({ s with delayed := [] } : Server).world :=
    .single .quiet ⟨⟨s.world, .idle _ _, s.links, [], .refl _, List.nil_subset _, rfl⟩, trivial⟩
  have hrun := (runDelayed_done hb.queued s.delayed [] { s with delayed := [] } rfl rfl (PlayedBy.base h₀ hb)).mono
    (fun u hu => h₀.trans hu)
  refine Out.all_andThen hrun (fun t ht => ?_) (fun _ h => h)
  refine Out.all_andThen ((sweepRooms_done env s t (PlayedBy.base ht hb).keyed).mono (fun u hu => ht.trans hu))
    (fun t' ht' => ?_) (fun _ h => h)
  have hconn := sweepConnections_sent env t'.connections.keys t' false
  generalize sweepConnections env t'.connections.keys t' false = o at hconn
  have hquiet : ∀ u : Server, World.Sent t'.world u.world → PlayedBy env s .sweep s.world u.world := fun u hu =>
    ht'.trans (.single .quiet ⟨⟨_, .idle _ _, hu⟩, trivial⟩)
  cases o with
  | ok u =>
    have hbeat : World.Sent t'.world (if u.2 then u.1.rooms.values.foldl (fun s r =>
        s.broadcast r (s.roomRtt r) none none) u.1 else u.1).world := by
      split
      · exact hconn.trans (Sent.foldl (fun s r => sent_broadcast s r _ none none) _ u.1).world
      · exact hconn
    have hdone := hquiet _ hbeat
    exact hdone.trans (expire_done (PlayedBy.base hdone hb).keyed env.now)
  | err u => exact hquiet _ hconn
  | halt h => trivial

/-- **Every step is a chain of what its command may do**, each message by its handler. -/
theorem step_played {env : Env} {s t : Server} {c : Command} {config : Config} (hb : s.world.Base config)
    (h : s.step env c = some t) : PlayedBy env s c s.world t.world := by
  obtain rfl : s.config = config := hb.config
  cases c with
  | connected cid =>
    simp only [step] at h
    split at h
    · cases h
    · rename_i hn
      cases h
      have hnone : s.world.links cid = none := by
        show (s.connections.get cid).map _ = none
        rw [IndexMap.contains_eq_false.1 (by simpa using hn)]; rfl
      unfold connected
      rw [world_setConnection]
      exact .single (.connected rfl) ⟨.of_eq (.connected hnone), trivial⟩
  | receive cid frame =>
    exact Out.all_of_state (P := fun u => PlayedBy env s _ s.world u.world) (receive_done env s cid frame hb.keyed) h
  | disconnect cid =>
    exact Out.all_of_state (P := fun u => PlayedBy env s _ s.world u.world) (disconnect_done env s cid hb.keyed) h
  | sweep => exact Out.all_of_state (P := fun u => PlayedBy env s _ s.world u.world) (sweep_done env s hb) h

theorem step_chain {env : Env} {s t : Server} {c : Command} {config : Config} (hb : s.world.Base config)
    (h : s.step env c = some t) : DoneBy env s c s.world t.world := (step_played hb h).done

/-! Runs. -/

theorem boot_base (config : Config) (store : Store) (push : Bool) : (boot config store push).world.Base config :=
  ⟨rfl, ⟨(fun h => nomatch h), (fun h => nomatch h)⟩, (fun _ hd => nomatch hd)⟩

theorem Run.base {G : Env → Server → Command → Prop} {s t : Server} {config : Config} (h : Run G s t)
    (hb : s.world.Base config) : t.world.Base config := by
  induction h with
  | refl => exact hb
  | tail _ hs ih =>
    obtain ⟨env, c, -, hs⟩ := hs
    exact ih.chain (step_chain ih hs)

theorem Run.mono {G G' : Env → Server → Command → Prop} (hG : ∀ env s c, G env s c → G' env s c) {s t : Server}
    (h : Run G s t) : Run G' s t :=
  Relation.ReflTransGen.mono (fun _ _ ⟨env, c, hg, hs⟩ => ⟨env, c, hG env _ c hg, hs⟩) _ _ h

/-- **What every act of an allowed command keeps, a run keeps.** -/
theorem Run.invariant {G : Env → Server → Command → Prop} {I : World → Prop} {config : Config} {s t : Server}
    (hI : ∀ env s c a w w', G env s c → s.Does env c a w → w.Base config → Move a w w' → I w → I w')
    (h : Run G s t) (hb : s.world.Base config) (hs : I s.world) : I t.world := by
  induction h with
  | refl => exact hs
  | tail hrun hstep ih =>
    have hb' := Run.base hrun hb
    obtain ⟨env, c, hg, hstep⟩ := hstep
    have hchain := step_chain hb' hstep
    exact (hchain.invariant (I := fun w => w.Base config ∧ I w)
      (fun a w w' hd hm h => ⟨hm.base h.1, hI env _ c a w w' hg hd h.1 hm h.2⟩) ⟨hb', ih⟩).2

end Server
end Relay
