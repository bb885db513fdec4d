import GameRelay.Pulses
import GameRelay.Delays
import GameRelay.Trace
/-!
# Heartbeats — Pings, round-trip times and deadlines

A Ping is issued by a sweep and answered by a Pong with its time; nothing else touches it (`Steady`).  `Pings` is the
ledger of one connection.  **The Pings of a connection are the answered ones, each once, and at most one that is not; a
round-trip time is the time one took; and what nobody answers closes its connection** (`heartbeats_hold`).
-/
namespace Relay

variable [Extern]

namespace Server

/-- The command executes a Pong that answers the Ping of this time. -/
def Answers (env : Env) (s : Server) (c : Command) (x a : Nat) : Prop :=
  ∃ u txt v k, c = .receive x (.text txt) ∧ s.Executes env c u x (.text txt) ∧ s.Valid txt v "Pong" ∧
    v.idx "data" = .ofNat a ∧ s.connections.get x = some k ∧ k.ping = some a

/-- What the answer does: the Ping is settled, and the account has its round-trip time. -/
def answered (env : Env) (s : Server) (x a : Nat) (k : Connection) (p : String) (b : Player) : Server :=
  ((s.setConnection x (countFrame k env.now)).setConnection x { countFrame k env.now with ping := none }).setPlayer p
    { b with rtt := some (env.now - a) }

/-- **A Pong that answers sets the round-trip time and settles the Ping.** -/
theorem Answers.receive {env : Env} {s : Server} {c : Command} {x a : Nat} (h : s.Answers env c x a) :
    ∃ frame k p b, c = .receive x frame ∧ s.connections.get x = some k ∧ k.player = some p ∧ k.ping = some a ∧
      s.players.get p = some b ∧ s.receive env x frame = .ok (s.answered env x a k p b) := by
  obtain ⟨u, txt, v, k, rfl, he, hv, hd, hk, hping⟩ := h
  cases he with
  | text ha hp ht hv' hs hm hnow =>
    rename_i c p m v'
    have hc := ha.found
    rw [hk] at hc
    cases hc
    have hvv := hv.parses.symm.trans hv'.parses
    cases hvv
    have hcur := ha.current
    unfold isCurrent connectionOf at hcur
    rw [hp] at hcur
    have hcur : (s.players.get p).bind (·.connection) = some x := of_decide_eq_true hcur
    cases hb : s.players.get p with
    | none => rw [hb] at hcur; cases hcur
    | some b =>
    refine ⟨.text txt, k, p, b, rfl, hk, hp, hping, hb, ?_⟩
    have hget : (s.setConnection x (countFrame k env.now)).connections.get x = some (countFrame k env.now) :=
      IndexMap.get_insert_self _ _ _
    have hconf : (s.setConnection x (countFrame k env.now)).config = s.config := rfl
    unfold Server.receive
    rw [hk]
    dsimp only
    rw [ha.isOpen, ha.current]
    simp only [Bool.not_true, Bool.or_self, Bool.false_eq_true, if_false]
    rw [hconf, if_neg (Nat.not_lt.2 ha.rate), if_neg (Nat.not_lt.2 ht)]
    unfold receiveText
    rw [hv.parses]
    dsimp only
    rw [hconf, if_neg (by rw [hv.valid]; decide), if_neg (Nat.not_lt.2 hs), hv.method]
    dsimp only [Out.unwrap]
    rw [show (countFrame k env.now).player = some p from hp]
    simp only [String.reduceEq, if_false]
    unfold submit
    simp only [decide_true, Bool.not_true, Bool.and_false, Bool.false_eq_true, if_false]
    unfold dispatch
    rw [hget]
    dsimp only [Option.bind_some]
    rw [show (countFrame k env.now).player = some p from hp]
    dsimp only [Option.or, Out.unwrap]
    unfold handle
    rw [hv.method]
    simp only [Out.unwrap, String.reduceEq, if_false, if_true]
    unfold pong
    rw [hget]
    dsimp only [Out.unwrap]
    rw [show (countFrame k env.now).ping = k.ping from rfl, hping]
    dsimp only
    rw [if_pos hd, show (s.setConnection x (countFrame k env.now)).players.get p = some b from hb]
    rfl

/-- **Any other frame is steady.** -/
theorem receive_steady {env : Env} {s : Server} {cid : Nat} {frame : Frame} (hk : s.world.Keyed)
    (hno : ∀ a, ¬ s.Answers env (.receive cid frame) cid a) : (s.receive env cid frame).All s.Steady := by
  unfold receive
  split
  · exact .refl s
  rename_i k hc
  split
  · exact .refl s
  rename_i hopen
  simp only [Bool.or_eq_true, not_or, Bool.not_eq_true', Bool.not_eq_true, Bool.not_eq_false] at hopen
  dsimp only
  have hw : (s.setConnection cid (countFrame k env.now)).world = s.world := world_setConnection_same hc rfl
  have hcount : s.Steady (s.setConnection cid (countFrame k env.now)) := .setConnection hc rfl
  generalize ht : s.setConnection cid (countFrame k env.now) = t at *
  have hget : t.connections.get cid = some (countFrame k env.now) := by
    rw [← ht]; exact IndexMap.get_insert_self _ _ _
  have hconf : t.config = s.config := by rw [← ht]; rfl
  have hclose := fun code reason => hcount.trans (steady_close t cid code reason)
  have herr := fun code => hcount.trans (steady_error t cid code)
  split
  · exact hclose _ _
  rename_i hrate
  split
  · exact hcount.trans (steady_raw t cid rfl)
  · exact hcount
  · rename_i txt
    split
    · exact hclose _ _
    rename_i hsize
    unfold receiveText
    split
    · exact herr _
    rename_i v hparse
    refine Out.all_ite (fun _ => herr _) (fun hvalid => Out.all_ite (fun _ => herr _) (fun hlen => ?_))
    refine Out.all_unwrap (fun m hm => ?_)
    split
    · refine Out.all_ite (fun _ => ?_) (fun _ => herr _)
      exact reportErr_all (steady_auth env t cid _ (hw ▸ hk)) (fun u hu => hcount.trans hu)
        (fun u hu => (hcount.trans hu).trans (steady_error u cid _))
    · rename_i p hp
      refine Out.all_ite (fun _ => herr _) (fun hne => ?_)
      refine (steady_submit env t cid p _ _ _ _ ?_).mono (fun u hu => hcount.trans hu)
      by_cases hpong : m = "Pong"
      · -- a Pong that answers nothing
        subst hpong
        have hquiet : t.pong env cid p (v.idx "data") = .ok t := by
          unfold pong
          rw [hget]
          dsimp only [Out.unwrap]
          cases hping : k.ping with
          | none => rw [show (countFrame k env.now).ping = k.ping from rfl, hping]
          | some a =>
            rw [show (countFrame k env.now).ping = k.ping from rfl, hping]
            dsimp only
            refine if_neg (fun hd => hno a ?_)
            have hv : s.Valid txt v "Pong" := ⟨hparse, by rw [← hconf]; exact eq_true_of_ne_false hvalid, hm⟩
            have he : s.Executes env (.receive cid (.text txt)) (s.setConnection cid (countFrame k env.now)) cid (.text txt) :=
              .text ⟨hc, hopen.1, hopen.2, hconf ▸ Nat.le_of_not_lt hrate⟩ hp (hconf ▸ Nat.le_of_not_lt hsize) hv
                (hconf ▸ Nat.le_of_not_lt hlen) hne (.inr rfl)
            exact ⟨_, txt, v, k, rfl, he, hv, hd, hc, hping⟩
        unfold dispatch
        rw [hget]
        dsimp only [Option.bind_some]
        rw [show (countFrame k env.now).player = some p from hp]
        dsimp only [Option.or, Out.unwrap]
        unfold handle
        rw [hm]
        simp only [Out.unwrap, String.reduceEq, if_false, if_true]
        rw [hquiet]
        exact .refl t
      · refine steady_dispatch env t cid _ _ (fun txt' v' _ hv' hm' => hpong ?_)
        cases hv'
        exact Option.some.inj (hm.symm.trans hm')
  · split
    · exact hclose _ _
    split
    · exact herr _
    · rename_i p hp
      refine Out.all_ite (fun _ => herr _) (fun _ => ?_)
      exact (steady_submit env t cid p _ _ _ _ (steady_dispatch env t cid _ _ (fun _ _ h _ => by cases h))).mono
        (fun u hu => hcount.trans hu)

/-! The delay queue. -/

/-- The frame is no Pong. -/
def Tame (frame : Frame) : Prop :=
  ∀ txt v, frame = .text txt → Protocol.parse txt = some v → (v.idx "method").asStr ≠ some "Pong"

/-- **A Pong does not wait.** -/
theorem receive_pong_calm {env : Env} {s : Server} {cid : Nat} {txt : String} {v : Value}
    (hparse : Protocol.parse txt = some v) (hm : (v.idx "method").asStr = some "Pong") :
    (s.receive env cid (.text txt)).All s.Calm := by
  have hrefl : s.Calm s := .same rfl rfl (fun {_ c} h => ⟨c, h, rfl⟩)
  unfold receive
  split
  · exact hrefl
  rename_i c hc
  split
  · exact hrefl
  dsimp only
  have hbook : Emits true Message.Plain s (s.setConnection cid (countFrame c env.now)) :=
    .setConnection hc (outbox_countFrame c env.now) rfl
  have hcount := hbook.isCalm
  generalize ht : s.setConnection cid (countFrame c env.now) = t at *
  have hget : t.connections.get cid = some (countFrame c env.now) := by
    rw [← ht]; exact IndexMap.get_insert_self _ _ _
  have hsent : ∀ u, Sent t u → s.Calm u := fun u hu => hcount.trans hu.calm
  refine Out.all_ite (fun _ => hsent _ (sent_close t cid _ _)) (fun _ => ?_)
  refine Out.all_ite (fun _ => hsent _ (sent_close t cid _ _)) (fun _ => ?_)
  unfold receiveText
  rw [hparse]
  refine Out.all_ite (fun _ => hsent _ (sent_error t cid _)) (fun _ => ?_)
  refine Out.all_ite (fun _ => hsent _ (sent_error t cid _)) (fun _ => ?_)
  rw [hm]
  dsimp only [Out.unwrap]
  split
  · exact Out.all_ite (fun h => absurd h (by decide)) (fun _ => hsent _ (sent_error t cid _))
  · rename_i p hp
    refine Out.all_ite (fun _ => hsent _ (sent_error t cid _)) (fun _ => ?_)
    unfold submit
    simp only [decide_true, Bool.not_true, Bool.and_false, Bool.false_eq_true, if_false]
    exact (dispatch_emits env t cid _ _ (by rw [hget]; exact hp)).mono (fun u hu => hcount.trans hu.isCalm)

/-- **No Pong is ever in the delay queue.** -/
theorem step_tame {env : Env} {s t : Server} {c : Command} (hk : s.world.Keyed) (h : s.step env c = some t)
    (hs : ∀ d ∈ s.delayed, Tame d.frame) : ∀ d ∈ t.delayed, Tame d.frame := by
  by_cases hc : c = .sweep
  · subst hc
    obtain ⟨-, hd, -⟩ := sweep_queue h
    intro d hd'
    rw [hd] at hd'
    exact hs d (List.mem_filter.1 hd').1
  · obtain ⟨keep, new, hpass, hnew⟩ := command_passes hk hc h
    intro d hd
    rw [hpass.delayed] at hd
    rcases List.mem_append.1 hd with hd | hd
    · exact hs d (List.mem_filter.1 hd).1
    · rcases hnew with rfl | ⟨-, d', rfl, rfl, htakes⟩
      · cases hd
      · cases List.mem_singleton.1 hd
        intro txt v hframe hparse hm
        rw [hframe] at h
        have hcalm := (Out.all_of_state (receive_pong_calm hparse hm) h).delayed
        rw [htakes.delayed] at hcalm
        exact absurd (congrArg List.length hcalm) (by simp)

/-! Sweeps. -/

/-- The frame of a Ping. -/
def pingFrame (now : Nat) : Message := .text (.obj [("method", .str "Ping"), ("data", .ofNat now)])

/-- A sweep at this time: Pings are issued, and go out, where none is outstanding; no round-trip time is set. -/
structure Beats (now : Nat) (s t : Server) : Prop where
  pulses : ∀ {x c'}, t.connections.get x = some c' → ∃ c, s.connections.get x = some c ∧ c'.created = c.created ∧
    (c'.ping = c.ping ∨ (c.ping = none ∧ c'.ping = some now))
  rtts : ∀ {p r}, t.rttOf p = some r → s.rttOf p = some r
  frames : ∃ new, t.offered = s.offered ++ new ∧ ∀ x ∈ new, x.2.isPing = true → x.2 = pingFrame now ∧
    (∃ c, s.connections.get x.1 = some c ∧ c.ping = none) ∧
    ∀ c', t.connections.get x.1 = some c' → c'.ping = some now

omit [Extern] in
theorem Steady.beats {s t : Server} (h : s.Steady t) (now : Nat) : s.Beats now t := by
  refine ⟨fun hx => ?_, h.rtts, ?_⟩
  · obtain ⟨c, hc, hp⟩ := h.pulses hx
    exact ⟨c, hc, congrArg Pulse.created hp, .inl (congrArg Pulse.ping hp)⟩
  · obtain ⟨new, hnew, hall⟩ := h.frames
    refine ⟨new, hnew, fun x hx hp => ?_⟩
    rw [hall x hx] at hp
    cases hp

omit [Extern] in
theorem Beats.trans {now : Nat} {s t u : Server} (h : s.Beats now t) (h' : t.Beats now u) : s.Beats now u := by
  refine ⟨fun hx => ?_, fun hr => h.rtts (h'.rtts hr), ?_⟩
  · obtain ⟨c₁, hc₁, hcreated, hping⟩ := h'.pulses hx
    obtain ⟨c, hc, hcreated', hping'⟩ := h.pulses hc₁
    refine ⟨c, hc, hcreated.trans hcreated', ?_⟩
    rcases hping with hp | ⟨hn, hp⟩
    · rcases hping' with hp' | ⟨hn', hp'⟩
      · exact .inl (hp.trans hp')
      · exact .inr ⟨hn', hp.trans hp'⟩
    · rcases hping' with hp' | ⟨hn', hp'⟩
      · exact .inr ⟨hp'.symm.trans hn, hp⟩
      · rw [hn] at hp'
        cases hp'
  · obtain ⟨l, hl, hall⟩ := h.frames
    obtain ⟨l', hl', hall'⟩ := h'.frames
    refine ⟨l ++ l', by rw [hl', hl, List.append_assoc], fun x hx hp => ?_⟩
    rcases List.mem_append.1 hx with hx | hx
    · obtain ⟨hframe, hbefore, hafter⟩ := hall x hx hp
      refine ⟨hframe, hbefore, fun c' hc' => ?_⟩
      obtain ⟨c₁, hc₁, -, hping⟩ := h'.pulses hc'
      rcases hping with hp' | ⟨hn, hp'⟩
      · exact hp'.trans (hafter c₁ hc₁)
      · exact hp'
    · obtain ⟨hframe, ⟨c₁, hc₁, hn⟩, hafter⟩ := hall' x hx hp
      obtain ⟨c, hc, -, hping⟩ := h.pulses hc₁
      refine ⟨hframe, ⟨c, hc, ?_⟩, hafter⟩
      rcases hping with hp' | ⟨-, hp'⟩
      · exact hp'.symm.trans hn
      · rw [hn] at hp'
        cases hp'

theorem steady_runDelayed (env : Env) : ∀ (ds : List Delayed) (s : Server), (∀ d ∈ ds, Tame d.frame) →
    (runDelayed env ds s).All s.Steady
  | [], s, _ => .refl s
  | d :: ds, s, hd => by
    have hrest : ∀ u, s.Steady u → (runDelayed env ds u).All s.Steady := fun u hu =>
      (steady_runDelayed env ds u (fun d' h => hd d' (List.mem_cons_of_mem _ h))).mono (fun v hv => hu.trans hv)
    unfold runDelayed
    refine Out.all_ite (fun _ => hrest _ (.same rfl rfl rfl)) (fun _ => ?_)
    split
    · exact hrest s (.refl s)
    rename_i c hc
    have hunqueue : s.Steady (s.setConnection d.cid (unqueue d c)) := .setConnection hc rfl
    refine Out.all_ite (fun _ => ?_) (fun _ => hrest _ hunqueue)
    refine Out.all_andThen (P := s.Steady) ?_ (fun u hu => hrest u hu) (fun _ h => h)
    refine (steady_dispatch env _ d.cid d.frame none (fun txt v hf hv => ?_)).mono (fun u hu => hunqueue.trans hu)
    exact hd d List.mem_cons_self txt v hf hv

theorem steady_keepEmpty (env : Env) : ∀ (ids : List String) (s : Server), (keepEmpty env ids s).All s.Steady
  | [], s => .refl s
  | id :: ids, s => by
    unfold keepEmpty
    have hremove : s.Steady (s.removeRoom id) := .same rfl rfl rfl
    exact Out.all_unwrap (fun r _ => (steady_keepEmpty env ids _).mono (fun t ht =>
      (hremove.trans (steady_keep env _ r)).trans ht))

theorem steady_sweepRooms (env : Env) (s : Server) : (s.sweepRooms env).All s.Steady := by
  unfold sweepRooms
  dsimp only
  generalize ht : ({ s with rooms := s.rooms.mapVals (fun _ r => timeoutUpload env.now r) } : Server) = t
  have hrooms : s.Steady t := by rw [← ht]; exact .same rfl rfl rfl
  exact (steady_keepEmpty env _ t).mono (fun u hu => hrooms.trans hu)

/-- The connection is past a deadline: unbound for too long, or its Ping unanswered for too long. -/
def Due (c : Config) (now : Nat) (k : Connection) : Prop :=
  (k.player = none ∧ c.authTimeoutMs ≤ now - k.created) ∨
    (k.player ≠ none ∧ ∃ a, k.ping = some a ∧ c.idleTimeoutMs ≤ now - a)

omit [Extern] in
theorem Due.congr {c : Config} {now : Nat} {k k' : Connection} (h : Due c now k') (hp : k'.player = k.player)
    (hpulse : k'.pulse = k.pulse) : Due c now k := by
  unfold Due at h ⊢
  rwa [hp, show k'.created = k.created from congrArg Pulse.created hpulse,
    show k'.ping = k.ping from congrArg Pulse.ping hpulse] at h

theorem raw_other (s : Server) (cid : Nat) (msg : Message) {x : Nat} (hx : x ≠ cid) :
    (s.raw cid msg).connections.get x = s.connections.get x := by
  unfold raw
  cases s.connections.get cid with
  | none => rfl
  | some c =>
    dsimp only
    split
    · rfl
    · split
      · exact IndexMap.get_insert_ne _ _ hx
      · split
        all_goals exact IndexMap.get_insert_ne _ _ hx

theorem sendC_other (s : Server) (cid : Nat) (v : Value) {x : Nat} (hx : x ≠ cid) :
    (s.sendC cid v).connections.get x = s.connections.get x := by
  unfold sendC
  split
  · exact raw_other s cid _ hx
  · rfl

/-- What a sweep leaves of a connection: closing, if a deadline has passed. -/
def Settled (c : Config) (now : Nat) (o : Option Connection) : Prop := ∀ k, o = some k → Due c now k → k.closing = true

omit [Extern] in
/-- Sending settles nothing anew. -/
theorem Settled.sent {c : Config} {now : Nat} {s t : Server} (h : Sent s t) (hs : s.Steady t) {x : Nat}
    (hx : Settled c now (s.connections.get x)) : Settled c now (t.connections.get x) := by
  intro k hk hdue
  obtain ⟨l, hl, hkeep⟩ := h.2.get' (links_get hk)
  obtain ⟨k₀, hk₀, rfl⟩ := Option.map_eq_some_iff.1 hl
  obtain ⟨k₁, hk₁, hpulse⟩ := hs.pulses hk
  rw [hk₀] at hk₁
  cases hk₁
  exact hkeep.closing (hx k₀ hk₀ (hdue.congr hkeep.player hpulse))

theorem pulse_sendC (s : Server) (cid : Nat) (v : Value) {x : Nat} {c' : Connection}
    (h : (s.sendC cid v).connections.get x = some c') : ∃ c, s.connections.get x = some c ∧ c'.pulse = c.pulse := by
  unfold sendC at h
  split at h
  · exact pulse_raw s cid _ h
  · exact ⟨c', h, rfl⟩

/-- A frame, or the refusal to send one that is too long, or nothing. -/
theorem sendC_offered (s : Server) (cid : Nat) (v : Value) : ∃ new, (s.sendC cid v).offered = s.offered ++ new ∧
    ∀ x ∈ new, x.1 = cid ∧ (x.2 = .text v ∨ x.2.isPing = false) := by
  have hraw : ∀ msg : Message, msg = .text v ∨ msg.isPing = false → ∃ new, (s.raw cid msg).offered = s.offered ++ new ∧
      ∀ x ∈ new, x.1 = cid ∧ (x.2 = .text v ∨ x.2.isPing = false) := by
    intro msg hmsg
    rw [raw_offered]
    split
    · exact ⟨_, rfl, fun x hx => by rw [List.mem_singleton.1 hx]; exact ⟨rfl, hmsg⟩⟩
    · exact ⟨[], (List.append_nil _).symm, fun _ h => absurd h List.not_mem_nil⟩
  unfold sendC encoded
  split
  · rename_i msg hm
    refine hraw msg ?_
    split at hm
    · cases hm; exact .inl rfl
    · rw [Option.none_or] at hm
      split at hm
      · cases hm; exact .inr (not_ping (by decide))
      · cases hm
  · exact ⟨[], (List.append_nil _).symm, fun _ h => absurd h List.not_mem_nil⟩

/-- **A Ping goes out where none is outstanding**, and is outstanding then. -/
theorem ping_beats (now : Nat) {s : Server} {cid : Nat} {k : Connection} (k' : Connection)
    (hk : s.connections.get cid = some k) (hn : k.ping = none)
    (hk' : k'.created = k.created ∧ k'.ping = some now ∧ k'.player = k.player) :
    s.Beats now ((s.setConnection cid k').sendC cid (.obj [("method", .str "Ping"), ("data", .ofNat now)])) ∧
      ∀ c, ((s.setConnection cid k').sendC cid (.obj [("method", .str "Ping"), ("data", .ofNat now)])).connections.get cid =
        some c → c.player = k.player ∧ c.ping = some now := by
  generalize ht : s.setConnection cid k' = t
  have hget : t.connections.get cid = some k' := by rw [← ht]; exact IndexMap.get_insert_self _ _ _
  have hother : ∀ x, x ≠ cid → t.connections.get x = s.connections.get x := fun x hx => by
    rw [← ht]; exact IndexMap.get_insert_ne _ _ hx
  have hping : ∀ c, (t.sendC cid (.obj [("method", .str "Ping"), ("data", .ofNat now)])).connections.get cid = some c →
      c.pulse = k'.pulse := fun c hc => by
    obtain ⟨c₁, hc₁, hp⟩ := pulse_sendC t cid _ hc
    rw [hget] at hc₁
    cases hc₁
    exact hp
  refine ⟨⟨fun {x c'} hx => ?_, fun {p r} hr => ?_, ?_⟩, fun c hc => ⟨?_, (congrArg Pulse.ping (hping c hc)).trans hk'.2.1⟩⟩
  · by_cases he : x = cid
    · subst he
      exact ⟨k, hk, (congrArg Pulse.created (hping c' hx)).trans hk'.1,
        .inr ⟨hn, (congrArg Pulse.ping (hping c' hx)).trans hk'.2.1⟩⟩
    · obtain ⟨c, hc, hp⟩ := pulse_sendC t cid _ hx
      exact ⟨c, hother x he ▸ hc, congrArg Pulse.created hp, .inl (congrArg Pulse.ping hp)⟩
  · have hcore := sendC_toCore t cid (.obj [("method", .str "Ping"), ("data", .ofNat now)])
    unfold rttOf at hr ⊢
    rw [show (t.sendC cid _).players = t.players from congrArg Core.players hcore, ← ht] at hr
    exact hr
  · obtain ⟨new, hnew, hall⟩ := sendC_offered t cid (.obj [("method", .str "Ping"), ("data", .ofNat now)])
    refine ⟨new, by rw [hnew, ← ht]; rfl, fun x hx hp => ?_⟩
    obtain ⟨hcid, hframe⟩ := hall x hx
    rcases hframe with hf | hf
    · refine ⟨hf, ⟨k, hcid ▸ hk, hn⟩, fun c' hc' => ?_⟩
      rw [hcid] at hc'
      exact (congrArg Pulse.ping (hping c' hc')).trans hk'.2.1
    · rw [hf] at hp
      cases hp
  · obtain ⟨l, hl, hkeep⟩ := (sent_sendC t cid (.obj [("method", .str "Ping"), ("data", .ofNat now)])).2.get' (links_get hc)
    rw [links_get hget] at hl
    cases hl
    exact hkeep.player.trans hk'.2.2

/-- One connection's turn: a Ping may go out to it, and it is settled; the others stay. -/
theorem sweepConnection_turn (env : Env) (s : Server) {cid : Nat} {k : Connection} (hk : s.connections.get cid = some k) :
    (s.sweepConnection env cid k).1.config = s.config ∧ s.Beats env.now (s.sweepConnection env cid k).1 ∧
      Settled s.config env.now ((s.sweepConnection env cid k).1.connections.get cid) ∧
      ∀ x, x ≠ cid → (s.sweepConnection env cid k).1.connections.get x = s.connections.get x := by
  have hclose : ∀ reason, (s.close cid 1008 reason).config = s.config ∧ s.Beats env.now (s.close cid 1008 reason) ∧
      Settled s.config env.now ((s.close cid 1008 reason).connections.get cid) ∧
      ∀ x, x ≠ cid → (s.close cid 1008 reason).connections.get x = s.connections.get x := fun reason =>
    ⟨congrArg Core.config (close_toCore s cid 1008 reason), (steady_close s cid 1008 reason).beats _,
      fun k' hk' _ => closing_close s cid 1008 reason hk', fun x hx => raw_other s cid _ hx⟩
  unfold sweepConnection
  dsimp only
  split
  · rename_i hnone
    split
    · exact hclose _
    · rename_i hlate
      refine ⟨rfl, (Steady.refl s).beats _, fun k' hk' hdue => ?_, fun _ _ => rfl⟩
      cases hk.symm.trans hk'
      rcases hdue with ⟨-, h⟩ | ⟨h, -⟩
      · exact absurd h hlate
      · exact absurd (Option.isNone_iff_eq_none.1 hnone) h
  · rename_i hsome
    split
    · exact hclose _
    · rename_i hidle
      simp only [Bool.or_eq_true, decide_eq_true_eq, Option.any_eq_true, not_or, not_exists, not_and] at hidle
      obtain ⟨hactive, hanswer⟩ := hidle
      -- nothing is due unless its Ping is
      have quiet : ∀ k' : Connection, k'.player = k.player → k'.ping = k.ping → ¬ Due s.config env.now k' := by
        intro k' hp hping hdue
        rcases hdue with ⟨h, -⟩ | ⟨-, a, ha, h⟩
        · exact hsome (Option.isNone_iff_eq_none.2 (hp.symm.trans h))
        · exact hanswer a (hping.symm.trans ha) h
      split
      · split
        · rename_i hnoping
          have hnoping : k.ping = none := Option.isNone_iff_eq_none.1 hnoping
          obtain ⟨hbeats, hafter⟩ := ping_beats env.now
            { k with lastPing := env.now, ping := some env.now } hk hnoping ⟨rfl, rfl, rfl⟩
          refine ⟨congrArg Core.config (sendC_toCore _ cid _), hbeats, fun k' hk' hdue => ?_, fun x hx => ?_⟩
          · -- a Ping just issued is due only if everything is
            obtain ⟨hplayer, hping⟩ := hafter k' hk'
            rcases hdue with ⟨h, -⟩ | ⟨-, a, ha, h⟩
            · exact absurd (Option.isNone_iff_eq_none.2 (hplayer.symm.trans h)) hsome
            · cases hping.symm.trans ha
              omega
          · exact (sendC_other _ cid _ hx).trans (IndexMap.get_insert_ne _ _ hx)
        · refine ⟨rfl, Steady.beats (Steady.setConnection hk ?_) _, fun k' hk' hdue => ?_,
            fun x hx => IndexMap.get_insert_ne _ _ hx⟩
          · rfl
          rw [setConnection, IndexMap.get_insert_self] at hk'
          cases hk'
          exact absurd hdue (quiet _ rfl rfl)
      · refine ⟨rfl, (Steady.refl s).beats _, fun k' hk' hdue => ?_, fun _ _ => rfl⟩
        cases hk.symm.trans hk'
        exact absurd hdue (quiet _ rfl rfl)

theorem sweepConnections_turns (env : Env) : ∀ (cids : List Nat) (s : Server) (heartbeat : Bool), cids.Nodup →
    (sweepConnections env cids s heartbeat).All (fun x => x.1.config = s.config ∧ s.Beats env.now x.1 ∧
      (∀ cid ∈ cids, Settled s.config env.now (x.1.connections.get cid)) ∧
      ∀ cid, cid ∉ cids → x.1.connections.get cid = s.connections.get cid)
  | [], s, heartbeat, _ => ⟨rfl, (Steady.refl s).beats _, (fun _ h => nomatch h), fun _ _ => rfl⟩
  | cid :: cids, s, heartbeat, hn => by
    obtain ⟨hnew, hn⟩ := List.nodup_cons.1 hn
    unfold sweepConnections
    refine Out.all_unwrap (fun k hk => ?_)
    obtain ⟨hconf, hbeats, hsettled, hother⟩ := sweepConnection_turn env s hk
    refine (sweepConnections_turns env cids _ _ hn).mono (fun x hx => ?_)
    obtain ⟨hconf', hbeats', hsettled', hother'⟩ := hx
    refine ⟨hconf'.trans hconf, hbeats.trans hbeats', fun y hy => ?_, fun y hy => ?_⟩
    · rcases List.mem_cons.1 hy with rfl | hy
      · rw [hother' y hnew]
        exact hsettled
      · rw [← hconf]
        exact hsettled' y hy
    · rw [hother' y (fun h => hy (List.mem_cons_of_mem _ h)), hother y (fun h => hy (h ▸ List.mem_cons_self))]

theorem keepEmpty_ne_err (env : Env) {t : Server} : ∀ (ids : List String) (s : Server), keepEmpty env ids s ≠ .err t
  | [], _ => (fun h => nomatch h)
  | id :: ids, s => by
    unfold keepEmpty
    exact Out.unwrap_ne_err (fun r => keepEmpty_ne_err env ids _)

theorem sweepConnections_ne_err (env : Env) {x : Server × Bool} : ∀ (cids : List Nat) (s : Server) (heartbeat : Bool),
    sweepConnections env cids s heartbeat ≠ .err x
  | [], _, _ => (fun h => nomatch h)
  | cid :: cids, s, heartbeat => by
    unfold sweepConnections
    exact Out.unwrap_ne_err (fun k => sweepConnections_ne_err env cids _ _)

/-- **A sweep settles every connection**, issues Pings where none is outstanding, and sets no round-trip time. -/
theorem sweep_beats {env : Env} {s t : Server} (htame : ∀ d ∈ s.delayed, Tame d.frame) (h : (s.sweep env).state = some t) :
    s.Beats env.now t ∧ ∀ cid, Settled t.config env.now (t.connections.get cid) := by
  obtain ⟨⟨u, hrun⟩, -⟩ := sweep_queue h
  have hqueue : s.Steady { s with delayed := [] } := .same rfl rfl rfl
  have hu : s.Steady u := hqueue.trans (Out.all_of_state (steady_runDelayed env s.delayed _ htame) (by rw [hrun]; rfl))
  unfold sweep at h
  rw [hrun] at h
  dsimp only [Out.andThen] at h
  have hrooms := steady_sweepRooms env u
  cases hv : u.sweepRooms env with
  | halt x => rw [hv] at h; cases h
  | err v => exact absurd hv (keepEmpty_ne_err env _ _)
  | ok v =>
  rw [hv] at h hrooms
  dsimp only at h
  have hturns := sweepConnections_turns env v.connections.keys v false v.connections.nodup
  cases hw : sweepConnections env v.connections.keys v false with
  | halt x => rw [hw] at h; cases h
  | err x => exact absurd hw (sweepConnections_ne_err env _ _ _)
  | ok x =>
  obtain ⟨w, heartbeat⟩ := x
  rw [hw] at h hturns
  obtain ⟨hconf, hbeats, hsettled, hother⟩ := hturns
  dsimp only at h hconf hbeats hsettled hother
  -- every connection had its turn
  have hall : ∀ cid, Settled w.config env.now (w.connections.get cid) := by
    intro cid
    by_cases hc : cid ∈ v.connections.keys
    · rw [hconf]
      exact hsettled cid hc
    · intro k hk
      rw [hother cid hc, IndexMap.get_eq_none.2 hc] at hk
      cases hk
  -- what follows only sends
  have hcast : ∀ x : Server, (∃ b : Bool, x = if b then w.rooms.values.foldl (fun s r => s.broadcast r (s.roomRtt r) none none) w
      else w) → w.Steady x ∧ Sent w x := by
    rintro x ⟨b, rfl⟩
    split
    · exact ⟨Steady.foldl (fun s r => steady_broadcast s r none none (not_ping (by decide))) _ w,
        Sent.foldl (fun s r => sent_broadcast s r _ none none) _ w⟩
    · exact ⟨.refl w, .refl w⟩
  obtain ⟨hsteady, hsent⟩ := hcast _ ⟨heartbeat, rfl⟩
  cases h
  refine ⟨((hu.trans hrooms).beats _).trans (hbeats.trans ((hsteady.trans (steady_expire _ _)).beats _)), fun cid => ?_⟩
  rw [expire_connections, expire_field (f := fun s => s.config) (fun _ _ => rfl)]
  have := (hall cid).sent hsent hsteady
  rwa [← show _ = w.config from congrArg Core.config hsent.1] at this

/-! The ledger. -/

/-- The Ping a connection has not answered. -/
def pingOf (s : Server) (x : Nat) : Option Nat := (s.connections.get x).bind (·.ping)

end Server

/-- What a connection was sent: when it came, when Pings were issued to it, and the Pings it answered, each with the time
of the answer. -/
structure Pings where
  opened : Nat
  issued : List Nat
  answered : List (Nat × Nat)

/-- The ledger of connection `x` after a step. -/
inductive Pings.Next (env : Env) (s : Server) (c : Command) (t : Server) (x : Nat) (g : Pings) : Pings → Prop
  | opened (h : c = .connected x) : Next env s c t x g ⟨env.now, [], []⟩
  | answered {a : Nat} (h : s.Answers env c x a) : Next env s c t x g { g with answered := g.answered ++ [(a, env.now)] }
  | issued (hc : c = .sweep) (hs : s.pingOf x = none) (ht : t.pingOf x ≠ none) :
      Next env s c t x g { g with issued := g.issued ++ [env.now] }
  | still (hc : c ≠ .connected x) (ha : ∀ a, ¬ s.Answers env c x a)
      (hi : c = .sweep → s.pingOf x = none → t.pingOf x = none) : Next env s c t x g g

/-- The ledger is the connection's: its Pings are those it answered, in order, and the outstanding one. -/
structure Pings.Fits (g : Pings) (k : Connection) : Prop where
  opened : k.created = g.opened
  pings : g.issued = g.answered.map Prod.fst ++ k.ping.toList

omit [Extern] in
theorem Pings.Fits.congr {g : Pings} {k k' : Connection} (h : g.Fits k) (hp : k'.pulse = k.pulse) : g.Fits k' :=
  ⟨(congrArg Pulse.created hp).trans h.opened, by rw [show k'.ping = k.ping from congrArg Pulse.ping hp]; exact h.pings⟩

/-- A run at nondecreasing times, with the ledgers. -/
inductive Watched (b : Server) : Nat → Server → (Nat → Pings) → Prop
  | start (clock : Nat) : Watched b clock b (fun _ => ⟨0, [], []⟩)
  | step {clock : Nat} {env : Env} {s t : Server} {c : Command} {g g' : Nat → Pings} (h : Watched b clock s g)
      (hclock : clock ≤ env.now) (hs : s.step env c = some t) (hg : ∀ x, (g x).Next env s c t x (g' x)) :
      Watched b env.now t g'

/-- Every step has its ledgers. -/
theorem Pings.exists_next (env : Env) (s : Server) (c : Command) (t : Server) (g : Nat → Pings) :
    ∃ g' : Nat → Pings, ∀ x, (g x).Next env s c t x (g' x) := by
  refine Classical.skolem.1 (fun x => ?_)
  by_cases hc : c = .connected x
  · exact ⟨_, .opened hc⟩
  by_cases ha : ∃ a, s.Answers env c x a
  · obtain ⟨a, ha⟩ := ha
    exact ⟨_, .answered ha⟩
  by_cases hi : c = .sweep ∧ s.pingOf x = none ∧ t.pingOf x ≠ none
  · exact ⟨_, .issued hi.1 hi.2.1 hi.2.2⟩
  · exact ⟨_, .still hc (fun a h => ha ⟨a, h⟩) (fun h hs => by_contra (fun ht => hi ⟨h, hs, ht⟩))⟩

theorem Watched.run {b s : Server} {clock : Nat} {g : Nat → Pings} (h : Watched b clock s g) :
    Server.Run (fun _ _ _ => True) b s := by
  induction h with
  | start => exact .refl
  | step _ _ hs _ ih => exact .tail ih ⟨_, _, trivial, hs⟩

namespace Server

/-- What holds of the heartbeat all along a run. -/
structure Pulsing (clock : Nat) (s : Server) (g : Nat → Pings) : Prop where
  tame : ∀ d ∈ s.delayed, Tame d.frame
  fits : ∀ x k, s.connections.get x = some k → (g x).Fits k
  past : ∀ x k a, s.connections.get x = some k → k.ping = some a → a ≤ clock

theorem Answers.command {env : Env} {s : Server} {c : Command} {x a : Nat} (h : s.Answers env c x a) :
    ∃ txt, c = .receive x (.text txt) := by
  obtain ⟨_, txt, _, _, hc, _⟩ := h
  exact ⟨txt, hc⟩

theorem Answers.receives {env : Env} {s : Server} {cid x a : Nat} {frame : Frame}
    (h : s.Answers env (.receive cid frame) x a) : x = cid := by
  obtain ⟨txt, hc⟩ := h.command
  cases hc
  rfl

theorem Answers.outstanding {env : Env} {s : Server} {c : Command} {x a : Nat} {k : Connection} (h : s.Answers env c x a)
    (hk : s.connections.get x = some k) : k.ping = some a := by
  obtain ⟨_, _, _, k', _, _, _, _, hk', hping⟩ := h
  cases hk.symm.trans hk'
  exact hping

/-- A step that leaves the pulses alone and answers nothing. -/
theorem Pulsing.steady {clock : Nat} {env : Env} {s t : Server} {c : Command} {g g' : Nat → Pings} (h : s.Pulsing clock g)
    (hclock : clock ≤ env.now) (htame : ∀ d ∈ t.delayed, Tame d.frame) (hs : s.Steady t) (hc : ∀ x, c ≠ .connected x)
    (hsweep : c ≠ .sweep) (ha : ∀ x a, ¬ s.Answers env c x a) (hg : ∀ x, (g x).Next env s c t x (g' x)) :
    t.Pulsing env.now g' := by
  refine ⟨htame, fun x k hk => ?_, fun x k a hk hping => ?_⟩
  · obtain ⟨k₀, hk₀, hp⟩ := hs.pulses hk
    have hnext := hg x
    generalize g' x = y at hnext ⊢
    cases hnext with
    | opened hc' => exact absurd hc' (hc x)
    | answered h' => exact absurd h' (ha x _)
    | issued hc' => exact absurd hc' hsweep
    | still => exact (h.fits x k₀ hk₀).congr hp
  · obtain ⟨k₀, hk₀, hp⟩ := hs.pulses hk
    exact Nat.le_trans (h.past x k₀ a hk₀ ((congrArg Pulse.ping hp).symm.trans hping)) hclock

omit [Extern] in
theorem answered_get {env : Env} {s : Server} {x a : Nat} {k : Connection} {p : String} {b : Player} (y : Nat) :
    (s.answered env x a k p b).connections.get y =
      if y = x then some { countFrame k env.now with ping := none } else s.connections.get y := by
  show ((s.connections.insert x _).insert x _).get y = _
  rw [IndexMap.get_insert]
  split
  · rfl
  · rename_i hy
    exact IndexMap.get_insert_ne _ _ hy

theorem Pulsing.step {clock : Nat} {env : Env} {s t : Server} {c : Command} {g g' : Nat → Pings} (h : s.Pulsing clock g)
    (hk : s.world.Keyed) (hclock : clock ≤ env.now) (hs : s.step env c = some t)
    (hg : ∀ x, (g x).Next env s c t x (g' x)) : t.Pulsing env.now g' := by
  have htame := step_tame hk hs h.tame
  cases c with
  | connected cid =>
    simp only [Server.step] at hs
    split at hs
    · cases hs
    cases hs
    refine ⟨htame, fun x k hx => ?_, fun x k a hx hping => ?_⟩
    · have hnext := hg x
      generalize g' x = y at hnext ⊢
      rw [connected, setConnection, IndexMap.get_insert] at hx
      split at hx
      · rename_i he
        cases hx
        cases hnext with
        | opened => exact ⟨rfl, rfl⟩
        | answered h' => obtain ⟨txt, hc⟩ := h'.command; cases hc
        | issued hc => cases hc
        | still hc => exact absurd (congrArg Command.connected he.symm) hc
      · rename_i he
        cases hnext with
        | opened hc => cases hc; exact absurd rfl he
        | answered h' => obtain ⟨txt, hc⟩ := h'.command; cases hc
        | issued hc => cases hc
        | still => exact h.fits x k hx
    · rw [connected, setConnection, IndexMap.get_insert] at hx
      split at hx
      · cases hx; cases hping
      · exact Nat.le_trans (h.past x k a hx hping) hclock
  | receive cid frame =>
    by_cases ha : ∃ a, s.Answers env (.receive cid frame) cid a
    · obtain ⟨a, ha⟩ := ha
      obtain ⟨frame', k, p, b, hframe, hk', hp, hping, hb, hrec⟩ := ha.receive
      cases hframe
      simp only [Server.step, hrec, Out.state] at hs
      cases hs
      refine ⟨htame, fun x k' hx => ?_, fun x k' a' hx hping' => ?_⟩
      · have hnext := hg x
        generalize g' x = y at hnext ⊢
        rw [answered_get] at hx
        split at hx
        · rename_i he
          subst he
          cases hx
          obtain ⟨hopened, hpings⟩ := h.fits x k hk'
          cases hnext with
          | opened hc => cases hc
          | answered h' =>
            have := h'.outstanding hk'
            rw [hping] at this
            cases this
            refine ⟨hopened, ?_⟩
            rw [hping] at hpings
            simpa using hpings
          | issued hc => cases hc
          | still _ hno => exact absurd ha (hno a)
        · rename_i he
          cases hnext with
          | opened hc => cases hc
          | answered h' => exact absurd h'.receives he
          | issued hc => cases hc
          | still => exact h.fits x k' hx
      · rw [answered_get] at hx
        split at hx
        · cases hx; cases hping'
        · exact Nat.le_trans (h.past x k' a' hx hping') hclock
    · refine h.steady (c := .receive cid frame) hclock htame
        (Out.all_of_state (receive_steady hk (fun a h' => ha ⟨a, h'⟩)) hs) (fun _ hc => ?_) (fun hc => ?_) (fun x a h' => ?_) hg
      · cases hc
      · cases hc
      · exact ha ⟨a, h'.receives ▸ h'⟩
  | disconnect cid =>
    refine h.steady (c := .disconnect cid) hclock htame (Out.all_of_state (steady_disconnect env s cid) hs) (fun _ hc => ?_)
      (fun hc => ?_) (fun x a h' => ?_) hg
    · cases hc
    · cases hc
    · obtain ⟨txt, hc⟩ := h'.command
      cases hc
  | sweep =>
    obtain ⟨hbeats, -⟩ := sweep_beats h.tame hs
    refine ⟨htame, fun x k' hx => ?_, fun x k' a hx hping => ?_⟩
    · obtain ⟨k, hk', hcreated, hping⟩ := hbeats.pulses hx
      obtain ⟨hopened, hpings⟩ := h.fits x k hk'
      have hs' : s.pingOf x = k.ping := by unfold pingOf; rw [hk']; rfl
      have ht' : t.pingOf x = k'.ping := by unfold pingOf; rw [hx]; rfl
      have hnext := hg x
      generalize g' x = y at hnext ⊢
      cases hnext with
      | opened hc => cases hc
      | answered h' => obtain ⟨txt, hc⟩ := h'.command; cases hc
      | issued hc hnone hsome =>
        rw [hs'] at hnone
        rw [ht'] at hsome
        refine ⟨hcreated.trans hopened, ?_⟩
        rcases hping with hp | ⟨-, hp⟩
        · exact absurd (hp.trans hnone) hsome
        · rw [hp]
          rw [hnone] at hpings
          simp [hpings]
      | still hc hno hi =>
        refine ⟨hcreated.trans hopened, ?_⟩
        rcases hping with hp | ⟨hn, hp⟩
        · rw [hp]
          exact hpings
        · have := hi rfl (hs'.trans hn)
          rw [ht', hp] at this
          cases this
    · obtain ⟨k, hk', -, hp⟩ := hbeats.pulses hx
      rcases hp with hp | ⟨-, hp⟩
      · exact Nat.le_trans (h.past x k a hk' (hp.symm.trans hping)) hclock
      · rw [hp] at hping
        cases hping
        exact Nat.le_refl _

/-- **All along a run the ledgers are the connections'.** -/
theorem pulsing_of_watched {config : Config} {store : Store} {push : Bool} {clock : Nat} {s : Server} {g : Nat → Pings}
    (h : Watched (boot config store push) clock s g) : s.Pulsing clock g := by
  induction h with
  | start => exact ⟨(fun _ h => nomatch h), (fun _ _ h => nomatch h), (fun _ _ _ h => nomatch h)⟩
  | step h hclock hs hg ih => exact ih.step (Run.base h.run (boot_base config store push)).keyed hclock hs hg

/-- What a step does to round-trip times and Pings: only the Pong that answers sets a time, the one its Ping took, and
settles the Ping; only a sweep sends a Ping, where none is outstanding. -/
structure Heartbeat (env : Env) (s : Server) (c : Command) (t : Server) : Prop where
  sets : ∀ {p r}, t.rttOf p = some r → s.rttOf p = some r ∨
    ∃ x k a, s.connections.get x = some k ∧ k.player = some p ∧ s.Answers env c x a ∧ a + r = env.now
  answers : ∀ {x a}, s.Answers env c x a → t.pingOf x = none ∧
    ∃ k p r, s.connections.get x = some k ∧ k.player = some p ∧ t.rttOf p = some r ∧ a + r = env.now
  frames : ∃ new, t.offered = s.offered ++ new ∧ ∀ y ∈ new, y.2.isPing = true → c = .sweep ∧ y.2 = pingFrame env.now ∧
    (∃ k, s.connections.get y.1 = some k ∧ k.ping = none) ∧ ∀ k, t.connections.get y.1 = some k → k.ping = some env.now

theorem Steady.heartbeat {env : Env} {s t : Server} {c : Command} (h : s.Steady t) (ha : ∀ x a, ¬ s.Answers env c x a) :
    s.Heartbeat env c t := by
  refine ⟨fun hr => .inl (h.rtts hr), fun {x a} h' => absurd h' (ha x a), ?_⟩
  obtain ⟨new, hnew, hall⟩ := h.frames
  refine ⟨new, hnew, fun y hy hp => ?_⟩
  rw [hall y hy] at hp
  cases hp

/-- **Every step of a run keeps the heartbeat.** -/
theorem Pulsing.heartbeat {clock : Nat} {env : Env} {s t : Server} {c : Command} {g : Nat → Pings} (h : s.Pulsing clock g)
    (hk : s.world.Keyed) (hclock : clock ≤ env.now) (hs : s.step env c = some t) : s.Heartbeat env c t := by
  cases c with
  | connected cid =>
    have hno : ∀ x a, ¬ s.Answers env (.connected cid) x a := fun x a h' => by
      obtain ⟨txt, hc⟩ := h'.command
      cases hc
    simp only [Server.step] at hs
    split at hs
    · cases hs
    cases hs
    refine ⟨fun hr => .inl hr, fun {x a} h' => absurd h' (hno x a), [], (List.append_nil _).symm, fun _ h => absurd h List.not_mem_nil⟩
  | receive cid frame =>
    by_cases ha : ∃ a, s.Answers env (.receive cid frame) cid a
    · obtain ⟨a, ha⟩ := ha
      obtain ⟨frame', k, p, b, hframe, hk', hp, hping, hb, hrec⟩ := ha.receive
      cases hframe
      simp only [Server.step, hrec, Out.state] at hs
      cases hs
      have hpast : a + (env.now - a) = env.now := Nat.add_sub_cancel' (Nat.le_trans (h.past cid k a hk' hping) hclock)
      have hrtt : ∀ q, (s.answered env cid a k p b).rttOf q = if q = p then some (env.now - a) else s.rttOf q := by
        intro q
        show ((s.players.insert p _).get q).bind (·.rtt) = _
        rw [IndexMap.get_insert]
        split <;> rfl
      refine ⟨fun {q r} hr => ?_, fun {x a'} h' => ?_, [], (List.append_nil _).symm, fun _ h => absurd h List.not_mem_nil⟩
      · rw [hrtt] at hr
        split at hr
        · rename_i hq
          cases hr
          exact .inr ⟨cid, k, a, hk', hq ▸ hp, ha, hpast⟩
        · exact .inl hr
      · have hx := h'.receives
        subst hx
        cases hping.symm.trans (h'.outstanding hk')
        refine ⟨?_, k, p, _, hk', hp, by rw [hrtt, if_pos rfl], hpast⟩
        unfold pingOf
        rw [answered_get, if_pos rfl]
        rfl
    · refine Steady.heartbeat (Out.all_of_state (receive_steady hk (fun a h' => ha ⟨a, h'⟩)) hs) (fun x a h' => ha ⟨a, ?_⟩)
      exact h'.receives ▸ h'
  | disconnect cid =>
    refine Steady.heartbeat (Out.all_of_state (steady_disconnect env s cid) hs) (fun x a h' => ?_)
    obtain ⟨txt, hc⟩ := h'.command
    cases hc
  | sweep =>
    obtain ⟨hbeats, -⟩ := sweep_beats h.tame hs
    refine ⟨fun hr => .inl (hbeats.rtts hr), fun {x a} h' => ?_, ?_⟩
    · obtain ⟨txt, hc⟩ := h'.command
      cases hc
    · obtain ⟨new, hnew, hall⟩ := hbeats.frames
      exact ⟨new, hnew, fun y hy hp => ⟨rfl, hall y hy hp⟩⟩

/-- **The heartbeat.**  In a run at nondecreasing times the Pings issued to a connection are those it answered, each once
and in order, and at most one more, which is outstanding.  A step sets a round-trip time only by a Pong with the time of the
outstanding Ping, to the time since then; and a sweep leaves closing every bound connection whose last Ping is unanswered
for `idleTimeoutMs`, and every unbound one that came `authTimeoutMs` before, whatever they sent. -/
theorem heartbeats_hold {config : Config} {store : Store} {push : Bool} {clock : Nat} {s : Server} {g : Nat → Pings}
    (h : Watched (boot config store push) clock s g) :
    (∀ x k, s.connections.get x = some k → (g x).Fits k) ∧
    ∀ env c t (g' : Nat → Pings), clock ≤ env.now → s.step env c = some t → (∀ x, (g x).Next env s c t x (g' x)) →
      s.Heartbeat env c t ∧
      (c = .sweep → ∀ x k, t.connections.get x = some k →
        (∀ a, k.player ≠ none → (g' x).issued = (g' x).answered.map Prod.fst ++ [a] →
          config.idleTimeoutMs ≤ env.now - a → k.closing = true) ∧
        (k.player = none → config.authTimeoutMs ≤ env.now - (g' x).opened → k.closing = true)) := by
  have hpulsing := pulsing_of_watched h
  refine ⟨hpulsing.fits, fun env c t g' hclock hs hg => ?_⟩
  have hnext := Watched.step h hclock hs hg
  refine ⟨hpulsing.heartbeat (Run.base h.run (boot_base config store push)).keyed hclock hs, ?_⟩
  rintro rfl x k hk
  have hconf : t.config = config := (Run.base hnext.run (boot_base config store push)).config
  obtain ⟨hopened, hpings⟩ := (pulsing_of_watched hnext).fits x k hk
  have hsettled := (sweep_beats hpulsing.tame hs).2 x k hk
  rw [hconf] at hsettled
  refine ⟨fun a hbound hissued hlate => hsettled (.inr ⟨hbound, a, ?_, hlate⟩), fun hfree hlate => hsettled (.inl ⟨hfree, ?_⟩)⟩
  · have := List.append_cancel_left (hissued.symm.trans hpings)
    cases hping : k.ping with
    | none => rw [hping] at this; cases this
    | some b => rw [hping] at this; cases this; rfl
  · rw [hopened]
    exact hlate

/-- Commands executed one after the other at nondecreasing times, watched. -/
theorem watched_exec {b : Server} : ∀ {l : List (Env × Command)} {clock : Nat} {s t : Server} {g : Nat → Pings},
    Watched b clock s g → (clock :: l.map (·.1.now)).Pairwise (· ≤ ·) → exec (fun _ _ _ => true) l s = some t →
    ∃ last g', last ∈ clock :: l.map (·.1.now) ∧ Watched b last t g'
  | [], clock, s, t, g, h, _, he => by
    cases he
    exact ⟨clock, g, List.mem_cons_self, h⟩
  | (env, c) :: l, clock, s, t, g, h, hp, he => by
    rw [Server.exec, if_pos rfl] at he
    obtain ⟨u, hu, he⟩ := Option.bind_eq_some_iff.1 he
    obtain ⟨hfirst, hrest⟩ := List.pairwise_cons.1 hp
    obtain ⟨g', hg⟩ := Pings.exists_next env s c u g
    obtain ⟨last, g'', hlast, hw⟩ := watched_exec (.step h (hfirst env.now List.mem_cons_self) hu hg) hrest he
    exact ⟨last, g'', List.mem_cons_of_mem _ hlast, hw⟩

end Server

namespace Trace

def pong (a : Nat) : Value := .obj [("method", .str "Pong"), ("data", .ofNat a)]

/-- An account is sent a Ping, and answers another one. -/
def pinged : List (Env × Command) := [(.plain 1, .connected 1), (.plain 1, .tells 1 signUp), (.plain 10001, .sweep),
  (.plain 10002, .tells 1 (pong 1))]

end Trace

namespace Server

omit [Extern] in
/-- A Ping is issued at 10001 and answered wrongly; the sweep at 60001 closes the connection. -/
theorem heartbeats_hold_wrong :
    letI := Extern.reading [Trace.signUp, Trace.pong 1]
    ∃ clock s g t, Watched (boot .default .empty false) clock s g ∧
      (g 1).issued = (g 1).answered.map Prod.fst ++ [10001] ∧ s.step (Env.plain 60001) .sweep = some t ∧
      ∃ k, t.connections.get 1 = some k ∧ k.closing = true := by
  let _ := Extern.reading [Trace.signUp, Trace.pong 1]
  have h : (exec (fun _ _ _ => true) Trace.pinged (boot .default .empty false)).any (fun s =>
      (s.connections.get 1).any (fun k => decide (k.ping = some 10001)) &&
      (s.step (Env.plain 60001) .sweep).any (fun t => (t.connections.get 1).any (fun k =>
        k.player.isSome && decide (k.ping = some 10001)))) = true := by
    decide +kernel
  obtain ⟨s, hs, h⟩ := (Option.any_eq_true _ _).1 h
  obtain ⟨hk, ht⟩ := Bool.and_eq_true_iff.1 h
  obtain ⟨k, hk, hping⟩ := (Option.any_eq_true _ _).1 hk
  obtain ⟨t, ht, hk'⟩ := (Option.any_eq_true _ _).1 ht
  obtain ⟨k', hk', h⟩ := (Option.any_eq_true _ _).1 hk'
  obtain ⟨hbound, hping'⟩ := Bool.and_eq_true_iff.1 h
  obtain ⟨last, g, hlast, hw⟩ := watched_exec (.start 0) (by decide) hs
  have hlast : last ≤ 60001 := by
    have : ∀ x ∈ 0 :: Trace.pinged.map (·.1.now), x ≤ 60001 := by decide
    exact this last hlast
  obtain ⟨g', hg⟩ := Pings.exists_next (Env.plain 60001) s .sweep t g
  obtain ⟨hfits, hstep⟩ := heartbeats_hold hw
  obtain ⟨-, hdeadline⟩ := hstep (Env.plain 60001) .sweep t g' hlast ht hg
  have hlater := (heartbeats_hold (.step hw hlast ht hg)).1 1 k' hk'
  refine ⟨last, s, g, t, hw, ?_, ht, k', hk', (hdeadline rfl 1 k' hk').1 10001 ?_ ?_ (by decide)⟩
  · rw [(hfits 1 k hk).pings, of_decide_eq_true hping]
    rfl
  · exact Option.isSome_iff_ne_none.1 hbound
  · rw [hlater.pings, of_decide_eq_true hping']
    rfl

end Server
end Relay
