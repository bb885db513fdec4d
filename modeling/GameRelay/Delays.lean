import GameRelay.Binding
/-!
# Delays — what a command does to the delay queue

A receipt appends one frame (`Takes`), a login drops those of the connection it replaces (`Logs`), a disconnect those of
the connection that ends, a sweep takes out those that are due, one `turn` after another; nothing else touches the queue.
**While a connection keeps its frames it keeps its account, whose room changes under a new version only** (`Holds`).
-/
namespace Relay

variable [Extern]

namespace Server

/-- The frame was queued, as its account found itself. -/
structure Takes (env : Env) (s : Server) (cid : Nat) (frame : Frame) (d : Delayed) (t : Server) : Prop where
  delayed : t.delayed = s.delayed ++ [d]
  players : t.players = s.players
  bound : ∀ {x c}, s.connections.get x = some c → ∃ c', t.connections.get x = some c' ∧ c'.player = c.player
  entry : d.cid = cid ∧ d.frame = frame ∧ d.time = env.now + s.config.sendDelayMs
  sender : ∃ c id a, s.connections.get cid = some c ∧ c.closing = false ∧ c.player = some id ∧
    s.players.get id = some a ∧ a.connection = some cid ∧ a.version = d.version

/-- The connection logged in; the one it replaced, if any, closes and loses its delayed frames. -/
structure Logs (s : Server) (cid : Nat) (t : Server) : Prop where
  delayed : t.delayed = s.delayed ∨ ∃ old, t.delayed = s.delayed.filter (fun d => decide (d.cid ≠ old)) ∧
    ∀ c, t.connections.get old = some c → c.closing = true
  players : ∀ {id b k}, t.players.get id = some b → b.connection = some k → k ≠ cid → ∃ a, s.players.get id = some a ∧
    a.connection = some k ∧ a.version ≤ b.version ∧ (b.version = a.version → b.room = a.room)
  bound : ∀ {x c}, s.connections.get x = some c → ∃ c', t.connections.get x = some c' ∧ (x ≠ cid → c'.player = c.player)

omit [Extern] in
theorem Calm.logs {s t : Server} (h : s.Calm t) (cid : Nat) : s.Logs cid t :=
  ⟨.inl h.delayed, fun hb hk _ => h.players hb hk, fun hc => (h.bound hc).imp (fun _ hx => ⟨hx.1, fun _ => hx.2⟩)⟩

omit [Extern] in
theorem Calm.then_logs {s t u : Server} {cid : Nat} (h : s.Calm t) (h' : t.Logs cid u) : s.Logs cid u := by
  refine ⟨by rw [← h.delayed]; exact h'.delayed, fun hb hk hne => ?_, fun hc => ?_⟩
  · obtain ⟨a, ha, hka, hv, hr⟩ := h'.players hb hk hne
    obtain ⟨a', ha', hka', hv', hr'⟩ := h.players ha hka
    exact ⟨a', ha', hka', Nat.le_trans hv' hv, fun he => (hr (by omega)).trans (hr' (by omega))⟩
  · obtain ⟨c₁, hc₁, hp₁⟩ := h.bound hc
    obtain ⟨c₂, hc₂, hp₂⟩ := h'.bound hc₁
    exact ⟨c₂, hc₂, fun hx => (hp₂ hx).trans hp₁⟩

omit [Extern] in
/-- Only frames went out. -/
theorem Sent.calm {s t : Server} (h : Sent s t) : s.Calm t := by
  refine .same (congrArg Core.delayed h.1) (congrArg Core.players h.1) (fun hx => ?_)
  obtain ⟨l, hl, hk⟩ := h.2.get (links_get hx)
  obtain ⟨c', hc', rfl⟩ := Option.map_eq_some_iff.1 hl
  exact ⟨c', hc', hk.player⟩

omit [Extern] in
/-- Sending after a login. -/
theorem Logs.then_sent {s t u : Server} {cid : Nat} (h : s.Logs cid t) (h' : Sent t u) : s.Logs cid u := by
  have hcalm := h'.calm
  refine ⟨?_, fun hb hk hne => ?_, fun hc => ?_⟩
  · rcases h.delayed with hd | ⟨old, hd, hold⟩
    · exact .inl (hcalm.delayed.trans hd)
    · refine .inr ⟨old, hcalm.delayed.trans hd, fun c hc => ?_⟩
      obtain ⟨l, hl, hk⟩ := h'.2.get' (links_get hc)
      obtain ⟨c₀, hc₀, rfl⟩ := Option.map_eq_some_iff.1 hl
      exact hk.closing (hold c₀ hc₀)
  · obtain ⟨a, ha, hka, hv, hr⟩ := hcalm.players hb hk
    obtain ⟨a', ha', hka', hv', hr'⟩ := h.players ha hka hne
    exact ⟨a', ha', hka', Nat.le_trans hv' hv, fun he => (hr (by omega)).trans (hr' (by omega))⟩
  · obtain ⟨c₁, hc₁, hp₁⟩ := h.bound hc
    obtain ⟨c₂, hc₂, hp₂⟩ := hcalm.bound hc₁
    exact ⟨c₂, hc₂, fun hx => hp₂.trans (hp₁ hx)⟩

/-- **Binding a connection** leaves every other connection and what is current on it alone. -/
theorem bind_logs (env : Env) (s : Server) (cid : Nat) (id : String) (created : Bool) :
    (s.bind env cid id created).All (fun t => t.delayed = s.delayed ∧ s.Logs cid t) := by
  unfold bind
  refine Out.all_unwrap (fun p _ => ?_)
  dsimp only
  have hconn : ({ p with connection := some cid, offline := none, rtt := none } : Player).connection = some cid := rfl
  generalize ({ p with connection := some cid, offline := none, rtt := none } : Player) = pl at *
  refine Out.all_unwrap (fun c hc => ?_)
  generalize ({ c with player := some id } : Connection) = c'
  have hset : ∀ st (t : Server), Sent { (s.setPlayer id pl).setConnection cid c' with store := st } t →
      t.delayed = s.delayed ∧ s.Logs cid t := by
    intro st t ht
    have hcalm := ht.calm
    refine ⟨hcalm.delayed, .inl hcalm.delayed, fun {x b k} hb hk hne => ?_, fun {x c₀} hx => ?_⟩
    · obtain ⟨a, ha, hka, hv, hr⟩ := hcalm.players hb hk
      change (s.players.insert id pl).get x = some a at ha
      rw [IndexMap.get_insert] at ha
      split at ha
      · cases ha
        rw [hconn] at hka
        cases hka
        exact absurd rfl hne
      · exact ⟨a, ha, hka, hv, hr⟩
    · have hmid : ∃ c₁, ((s.setPlayer id pl).setConnection cid c').connections.get x = some c₁ ∧
          (x ≠ cid → c₁.player = c₀.player) := by
        change s.connections.get x = some c₀ at hx
        rw [setConnection, IndexMap.get_insert]
        split
        · rename_i hxc
          exact ⟨c', rfl, fun hne => absurd hxc hne⟩
        · exact ⟨c₀, hx, fun _ => rfl⟩
      obtain ⟨c₁, hc₁, hp₁⟩ := hmid
      obtain ⟨c₂, hc₂, hp₂⟩ := hcalm.bound hc₁
      exact ⟨c₂, hc₂, fun hne => hp₂.trans (hp₁ hne)⟩
  split
  · exact hset _ _ (.refl _)
  · rename_i st _
    have hsent := hset st
    generalize ({ (s.setPlayer id pl).setConnection cid c' with store := st } : Server) = s₁ at hsent ⊢
    have hgreet : ∀ v w, Sent s₁ (Server.sendC (if created then s₁.sendC cid v else s₁) cid w) := fun v w => by
      split
      · exact (sent_sendC s₁ cid v).trans (sent_sendC _ cid w)
      · exact sent_sendC s₁ cid w
    split
    · exact hsent _ ((hgreet _ _).trans (sent_sendC _ cid _))
    · exact hsent _ (hgreet _ _)

/-- A closing connection stays closing. -/
theorem Emits.closing {k : Bool} {P : Message → Prop} {s t : Server} (h : Emits k P s t) {cid : Nat}
    (hs : ∀ c, s.connections.get cid = some c → c.closing = true) : ∀ c, t.connections.get cid = some c → c.closing = true := by
  refine h.invariant (I := fun t => ∀ c, t.connections.get cid = some c → c.closing = true)
    (fun t x m _ ht c hc => ?_) (fun t u hq ht c hc => ?_) hs
  · obtain ⟨l, hl, hk⟩ := (sent_raw t x m).2.get' (links_get hc)
    obtain ⟨c₀, hc₀, rfl⟩ := Option.map_eq_some_iff.1 hl
    exact hk.closing (ht c₀ hc₀)
  · obtain ⟨c₀, hc₀, ho⟩ := hq.outboxes cid c hc
    exact (congrArg Outbox.closing ho).trans (ht c₀ hc₀)

/-- A connection that is gone stays gone. -/
theorem Emits.gone {k : Bool} {P : Message → Prop} {s t : Server} (h : Emits k P s t) {cid : Nat}
    (hs : s.connections.get cid = none) : t.connections.get cid = none := by
  refine h.invariant (I := fun t => t.connections.get cid = none) (fun t x m _ ht => ?_) (fun t u hq ht => ?_) hs
  · cases hc : (t.raw x m).connections.get cid with
    | none => rfl
    | some c =>
      obtain ⟨l, hl, -⟩ := (sent_raw t x m).2.get' (links_get hc)
      obtain ⟨c₀, hc₀, -⟩ := Option.map_eq_some_iff.1 hl
      rw [ht] at hc₀
      cases hc₀
  · cases hc : u.connections.get cid with
    | none => rfl
    | some c =>
      obtain ⟨c₀, hc₀, -⟩ := hq.outboxes cid c hc
      rw [ht] at hc₀
      cases hc₀

/-- Binding after the old session was replaced. -/
theorem rebind_logs (env : Env) (s : Server) (cid : Nat) {id : String} {p : Player} (d : Value)
    (hp : p.connection = none ∨ s.players.get id = some p) :
    (bind env ((s.replaceSession p).setPlayer id (renamed p d)) cid id false).All (s.Logs cid) := by
  have hren : (renamed p d).connection = p.connection ∧ (renamed p d).version = p.version ∧ (renamed p d).room = p.room := by
    unfold renamed
    split <;> exact ⟨rfl, rfl, rfl⟩
  have hset : ∀ u : Server, u.players = s.players → u.Calm (u.setPlayer id (renamed p d)) := fun u hu => by
    rcases hp with hp | hp
    · exact .setPlayer (fun k hk => by rw [hren.1, hp] at hk; cases hk)
    · exact .setPlayer_same (hu ▸ hp) hren.1 hren.2.1 hren.2.2
  unfold replaceSession
  split
  · rename_i old _
    have hclose := sent_close s old 1008 "Session replaced"
    have hcalm := hclose.calm
    have hpurge : (s.close old 1008 "Session replaced").players = s.players := congrArg Core.players hclose.1
    refine Out.All.mono (fun t ht => ?_) (Out.all_iff_state.2 (fun t ht =>
      And.intro (Out.all_of_state (bind_logs env _ cid id false) ht) (Out.all_of_state (bind_emits env _ cid id false) ht)))
    obtain ⟨⟨hdel, hlogs⟩, hemits⟩ := ht
    have hpl := (hset ((s.close old 1008 "Session replaced").purgeDelayed old) hpurge).then_logs hlogs
    refine ⟨.inr ⟨old, hdel.trans ?_, hemits.closing (fun c hc => closing_close s old _ _ hc)⟩, fun hb hk hne => ?_,
      fun hc => ?_⟩
    · show (s.close old 1008 "Session replaced").delayed.filter _ = _
      rw [hcalm.delayed]
    · obtain ⟨a, ha, h⟩ := hpl.players hb hk hne
      change (s.close old 1008 "Session replaced").players.get _ = some a at ha
      exact ⟨a, hpurge ▸ ha, h⟩
    · obtain ⟨c₁, hc₁, hp₁⟩ := hcalm.bound hc
      obtain ⟨c₂, hc₂, hp₂⟩ := hpl.bound (c := c₁) hc₁
      exact ⟨c₂, hc₂, fun hne => (hp₂ hne).trans hp₁⟩
  · exact (bind_logs env _ cid id false).mono (fun t ht => (hset s rfl).then_logs ht.2)

theorem reconnect_logs (env : Env) (s : Server) (cid : Nat) {p : Player} (d : Value)
    (hp : s.players.get p.id = some p ∨ (p.connection = none ∧ p.room = none)) :
    (s.reconnect env cid p d).All (s.Logs cid) := by
  unfold reconnect
  dsimp only
  generalize ht : (if s.players.contains p.id then s else s.setPlayer p.id p) = t
  have hcalm : s.Calm t := by
    rw [← ht]
    split
    · exact .same rfl rfl (fun {_ c} h => ⟨c, h, rfl⟩)
    · rename_i hno
      rcases hp with hp | hp
      · exact absurd (IndexMap.contains_iff.2 ⟨p, hp⟩) hno
      · exact .setPlayer (fun k hk => by rw [hp.1] at hk; cases hk)
  have hget : p.connection = none ∨ t.players.get p.id = some p := by
    rcases hp with hp | hp
    · refine .inr ?_
      rw [← ht]
      split
      · exact hp
      · exact IndexMap.get_insert_self _ _ _
    · exact .inl hp.1
  cases (p.room.bind t.rooms.get).any (fun r => r.started && r.fixed)
  · exact (rebind_logs env t cid d hget).mono (fun u hu => hcalm.then_logs hu)
  · refine Out.all_andThen ((leave_emits env t p.id true).mono (fun u hu => hcalm.trans hu.isCalm)) (fun u hu => ?_)
      (fun u hu => hu.logs cid)
    refine Out.all_unwrap (fun p' hp' => ?_)
    exact (rebind_logs env u cid d (.inr hp')).mono (fun v hv => hu.then_logs hv)

theorem auth_logs (env : Env) (s : Server) (cid : Nat) (d : Value) (hk : s.world.Keyed) :
    (s.auth env cid d).All (s.Logs cid) := by
  have hexp : s.Calm (s.expire env.now) := (expire_emits (P := Message.Plain) s env.now).isCalm
  have hfail := (hexp.trans (sent_authenticationFailed (s.expire env.now) cid).calm).logs cid
  unfold auth
  dsimp only
  refine Out.all_ite (fun _ => Out.all_ite (fun _ => ?_) (fun _ => ?_)) (fun _ => ?_)
  · exact (hexp.trans ((sent_error _ cid _).trans (sent_close _ cid _ _)).calm).logs cid
  · unfold drawId
    refine Out.all_ite (fun _ => trivial) (fun _ => ?_)
    generalize ht : ({ s.expire env.now with draws := (s.expire env.now).draws + 1, drawn :=
      (env.uuid (s.expire env.now).draws).text :: (s.expire env.now).drawn } : Server) = t
    have hdraw : s.Calm t := by rw [← ht]; exact hexp.trans (.same rfl rfl (fun {_ c} h => ⟨c, h, rfl⟩))
    refine (bind_logs env _ cid _ true).mono (fun u hu => (hdraw.trans (.setPlayer (fun k hk => ?_))).then_logs hu.2)
    cases hk
  · split
    · exact hexp.logs cid
    · exact hfail
    · rename_i p hret
      refine Out.all_ite (fun _ => hfail) (fun _ => ?_)
      refine (reconnect_logs env _ cid d ?_).mono (fun t ht => hexp.then_logs ht)
      unfold retainedAccount at hret
      split at hret
      · rename_i hp'
        cases hret
        have hk₁ : (s.expire env.now).world.Keyed :=
          PlayedBy.keyed (expire_done hk env.now : PlayedBy env s .sweep _ _) hk
        have hkey : p.id = _ := hk₁.seats (seats_eq hp')
        exact .inl (hkey.symm ▸ hp')
      · split at hret
        · exact .inr (account_shape hret)
        · cases hret

/-! Commands. -/

/-- **What a received frame does to the delay queue**: nothing, or it is appended, or its connection logs in. -/
inductive Receipt (env : Env) (s : Server) (cid : Nat) (frame : Frame) (t : Server) : Prop
  | calm (h : s.Calm t)
  | queued {d : Delayed} (h : s.Takes env cid frame d t)
  | login {c : Connection} (hc : s.connections.get cid = some c) (hp : c.player = none) (h : s.Logs cid t)

theorem receive_receipt (env : Env) (s : Server) (cid : Nat) (frame : Frame) (hk : s.world.Keyed) :
    (s.receive env cid frame).All (s.Receipt env cid frame) := by
  have hrefl : s.Calm s := .same rfl rfl (fun {_ c} h => ⟨c, h, rfl⟩)
  unfold receive
  split
  · exact .calm hrefl
  rename_i c hc
  split
  · exact .calm hrefl
  rename_i hopen
  simp only [Bool.or_eq_true, not_or, Bool.not_eq_true', Bool.not_eq_true, Bool.not_eq_false] at hopen
  dsimp only
  have hw : (s.setConnection cid (countFrame c env.now)).world = s.world := world_setConnection_same hc rfl
  have hbook : Emits true Message.Plain s (s.setConnection cid (countFrame c env.now)) :=
    .setConnection hc (outbox_countFrame c env.now) rfl
  have hcount := hbook.isCalm
  generalize ht : s.setConnection cid (countFrame c env.now) = t at *
  have hget : t.connections.get cid = some (countFrame c env.now) := by
    rw [← ht]; exact IndexMap.get_insert_self _ _ _
  have hconf : t.config = s.config := by rw [← ht]; rfl
  have hpl : t.players = s.players := by rw [← ht]; rfl
  have hsent : ∀ u, Sent t u → s.Receipt env cid frame u := fun u hu => .calm (hcount.trans hu.calm)
  have hsubmit : ∀ p roomScoped immediate parsed, c.player = some p →
      (t.submit env cid p frame roomScoped immediate parsed).All (s.Receipt env cid frame) := by
    intro p roomScoped immediate parsed hp
    unfold submit
    split
    · refine Out.all_unwrap (fun c₁ hc₁ => ?_)
      rw [hget] at hc₁
      cases hc₁
      refine Out.all_ite (fun _ => hsent _ (sent_close t cid _ _)) (fun _ => Out.all_unwrap (fun a ha => ?_))
      refine .queued (d := ⟨env.now + t.config.sendDelayMs, cid, a.version, roomScoped, frame, frame.len⟩) ⟨?_, hpl, ?_,
        ⟨rfl, rfl, by rw [hconf]⟩, c, p, a, hc, hopen.1, hp, hpl ▸ ha, ?_, rfl⟩
      · show t.delayed ++ _ = _
        rw [hcount.delayed]
      · intro x c₀ hx
        obtain ⟨c₁, hc₁, hp₁⟩ := hcount.bound hx
        have hwait : Emits true Message.Plain t (t.setConnection cid { countFrame c env.now with
            delayed := (countFrame c env.now).delayed + frame.len, pending := (countFrame c env.now).pending + 1 }) :=
          .setConnection hget rfl rfl
        obtain ⟨c₂, hc₂, hp₂⟩ := hwait.isCalm.bound hc₁
        exact ⟨c₂, hc₂, hp₂.trans hp₁⟩
      · have hcur := hopen.2
        unfold isCurrent connectionOf at hcur
        rw [hp] at hcur
        have hcur := of_decide_eq_true hcur
        rw [← hpl, ha] at hcur
        exact hcur
    · exact (dispatch_emits env t cid frame parsed (by rw [hget]; exact hp)).mono (fun u hu => .calm (hcount.trans hu.isCalm))
  split
  · exact hsent _ (sent_close t cid _ _)
  split
  · exact hsent _ (sent_raw t cid _)
  · exact hsent _ (.refl t)
  · rename_i txt
    split
    · exact hsent _ (sent_close t cid _ _)
    unfold receiveText
    split
    · exact hsent _ (sent_error t cid _)
    refine Out.all_ite (fun _ => hsent _ (sent_error t cid _)) (fun _ => ?_)
    refine Out.all_ite (fun _ => hsent _ (sent_error t cid _)) (fun _ => Out.all_unwrap (fun m _ => ?_))
    split
    · rename_i hp
      refine Out.all_ite (fun _ => ?_) (fun _ => hsent _ (sent_error t cid _))
      refine reportErr_all (auth_logs env t cid _ (hw ▸ hk)) (fun u hu => .login hc hp (hcount.then_logs hu)) (fun u hu => ?_)
      exact .login hc hp (hcount.then_logs (hu.then_sent (sent_error u cid _)))
    · rename_i p hp
      exact Out.all_ite (fun _ => hsent _ (sent_error t cid _)) (fun _ => hsubmit p _ _ _ hp)
  · split
    · exact hsent _ (sent_close t cid _ _)
    split
    · exact hsent _ (sent_error t cid _)
    · rename_i p hp
      exact Out.all_ite (fun _ => hsent _ (sent_error t cid _)) (fun _ => hsubmit p _ _ _ hp)

/-- What stays with the connections that keep their frames: the account, and its room as long as its version. -/
structure Holds (s : Server) (keep : Nat → Bool) (t : Server) : Prop where
  bound : ∀ {cid c id}, keep cid = true → s.connections.get cid = some c → c.player = some id →
    ∃ c', t.connections.get cid = some c' ∧ c'.player = some id
  players : ∀ {cid c id b}, keep cid = true → s.connections.get cid = some c → c.player = some id →
    t.players.get id = some b → b.connection = some cid → ∃ a, s.players.get id = some a ∧ a.connection = some cid ∧
      a.version ≤ b.version ∧ (b.version = a.version → b.room = a.room)

/-- A command other than a sweep: some connections lose their delayed frames, and some frames are queued. -/
structure Passes (s : Server) (keep : Nat → Bool) (new : List Delayed) (t : Server) : Prop extends s.Holds keep t where
  delayed : t.delayed = s.delayed.filter (fun d => keep d.cid) ++ new
  purged : ∀ cid, keep cid = false → ∀ c, t.connections.get cid = some c → c.closing = true

omit [Extern] in
theorem Calm.holds {s t : Server} (h : s.Calm t) : s.Holds (fun _ => true) t := by
  refine ⟨fun _ hc hp => ?_, fun _ _ _ hb hk => h.players hb hk⟩
  obtain ⟨c', hc', hp'⟩ := h.bound hc
  exact ⟨c', hc', hp'.trans hp⟩

omit [Extern] in
theorem Holds.trans_calm {s t u : Server} {keep : Nat → Bool} (h : s.Holds keep t) (h' : t.Calm u) : s.Holds keep u := by
  refine ⟨fun hk hc hid => ?_, fun hk hc hid hb hcur => ?_⟩
  · obtain ⟨c₁, hc₁, hp₁⟩ := h.bound hk hc hid
    obtain ⟨c₂, hc₂, hp₂⟩ := h'.bound hc₁
    exact ⟨c₂, hc₂, hp₂.trans hp₁⟩
  · obtain ⟨a, ha, hka, hv, hr⟩ := h'.players hb hcur
    obtain ⟨a', ha', hka', hv', hr'⟩ := h.players hk hc hid ha hka
    exact ⟨a', ha', hka', Nat.le_trans hv' hv, fun he => (hr (by omega)).trans (hr' (by omega))⟩

omit [Extern] in
theorem Calm.passes {s t : Server} (h : s.Calm t) : s.Passes (fun _ => true) [] t :=
  ⟨h.holds, by rw [h.delayed, List.append_nil, List.filter_true], fun _ hn => nomatch hn⟩

omit [Extern] in
theorem Takes.passes {s t : Server} {env : Env} {cid : Nat} {frame : Frame} {d : Delayed} (h : s.Takes env cid frame d t) :
    s.Passes (fun _ => true) [d] t := by
  refine ⟨⟨fun _ hc hp => ?_, fun {_ _ _ b} _ _ _ hb hk => ?_⟩, by rw [h.delayed, List.filter_true], fun _ hn => nomatch hn⟩
  · obtain ⟨c', hc', hp'⟩ := h.bound hc
    exact ⟨c', hc', hp'.trans hp⟩
  · exact ⟨b, h.players ▸ hb, hk, Nat.le_refl _, fun _ => rfl⟩

omit [Extern] in
/-- A connection that logs in had no account, hence no frames. -/
theorem Logs.passes {s t : Server} {cid : Nat} {c : Connection} (h : s.Logs cid t) (hc : s.connections.get cid = some c)
    (hp : c.player = none) : ∃ keep, s.Passes keep [] t := by
  have hne : ∀ {x k id}, s.connections.get x = some k → k.player = some id → x ≠ cid := by
    rintro x k id hk hid rfl
    rw [hc] at hk
    cases hk
    rw [hp] at hid
    cases hid
  have hholds : ∀ keep, s.Holds keep t := fun keep => by
    refine ⟨fun _ hk hid => ?_, fun _ hk hid hb hcur => h.players hb hcur (hne hk hid)⟩
    obtain ⟨k', hk', hp'⟩ := h.bound hk
    exact ⟨k', hk', (hp' (hne hk hid)).trans hid⟩
  rcases h.delayed with hd | ⟨old, hd, hold⟩
  · exact ⟨fun _ => true, hholds _, by rw [hd, List.append_nil, List.filter_true], fun _ hn => nomatch hn⟩
  · refine ⟨fun x => decide (x ≠ old), hholds _, by rw [hd, List.append_nil], fun x hx => ?_⟩
    have hx : x = old := Decidable.not_not.1 (of_decide_eq_false hx)
    exact hx ▸ hold

/-- A connection that ends takes its frames with it. -/
theorem disconnect_passes (env : Env) (s : Server) (cid : Nat) (h : (s.connections.get cid).isSome) :
    (s.disconnect env cid).All (s.Passes (fun x => decide (x ≠ cid)) []) := by
  have hpass : ∀ t u : Server, t.delayed = s.delayed.filter (fun d => decide (d.cid ≠ cid)) →
      t.connections = s.connections.shiftRemove cid → (∀ {id b x}, x ≠ cid → t.players.get id = some b →
        b.connection = some x → s.players.get id = some b) → t.Calm u →
      u.connections.get cid = none → s.Passes (fun x => decide (x ≠ cid)) [] u := by
    intro t u hd hn hp hu hgone
    refine ⟨⟨fun {x c id} hx hc hid => ?_, fun {x c id b} hx hc hid hb hk => ?_⟩, ?_, fun x hx c hc => ?_⟩
    · have ht : t.connections.get x = some c := by
        rw [hn, IndexMap.get_shiftRemove, if_neg (of_decide_eq_true hx)]
        exact hc
      obtain ⟨c', hc', hp'⟩ := hu.bound ht
      exact ⟨c', hc', hp'.trans hid⟩
    · obtain ⟨a, ha, hka, hv⟩ := hu.players hb hk
      exact ⟨a, hp (of_decide_eq_true hx) ha hka, hka, hv⟩
    · rw [hu.delayed, hd, List.append_nil]
    · have hx : x = cid := Decidable.not_not.1 (of_decide_eq_false hx)
      rw [hx, hgone] at hc
      cases hc
  unfold disconnect
  split
  · rename_i hn
    rw [hn] at h
    cases h
  rename_i c _
  dsimp only
  generalize ht : ({ s with delayed := s.delayed.filter (fun d => decide (d.cid ≠ cid)),
                            connections := s.connections.shiftRemove cid } : Server) = t
  have hd : t.delayed = s.delayed.filter (fun d => decide (d.cid ≠ cid)) := by rw [← ht]
  have hn : t.connections = s.connections.shiftRemove cid := by rw [← ht]
  have hpl : t.players = s.players := by rw [← ht]
  have hgone : t.connections.get cid = none := by rw [hn, IndexMap.get_shiftRemove, if_pos rfl]
  have hsame := hpass t t hd hn (fun _ hb _ => hpl ▸ hb) (.same rfl rfl (fun {_ c} h => ⟨c, h, rfl⟩)) hgone
  split
  · exact hsame
  split
  · exact hsame
  rename_i id _ _ p _
  split
  · generalize hu : t.setPlayer id { p with connection := none, offline := some env.now } = u
    have hp : ∀ {y b x}, x ≠ cid → u.players.get y = some b → b.connection = some x → s.players.get y = some b := by
      intro y b x _ hb hk
      rw [← hu, setPlayer, IndexMap.get_insert] at hb
      split at hb
      · cases hb
        cases hk
      · exact hpl ▸ hb
    have hdone : ∀ v, Emits true Message.Plain u v → s.Passes (fun x => decide (x ≠ cid)) [] v := fun v hv =>
      hpass u v (by rw [← hu]; exact hd) (by rw [← hu]; exact hn) hp hv.isCalm (hv.gone (by rw [← hu]; exact hgone))
    have hl := leave_emits env u id true
    generalize leave env u id true = o at hl
    cases o with
    | ok v => exact hdone v hl
    | err v => exact hdone v hl
    | halt _ => trivial
  · exact hsame

/-- **What a command other than a sweep does to the delay queue.** -/
theorem command_passes {env : Env} {s t : Server} {c : Command} (hk : s.world.Keyed) (hc : c ≠ .sweep)
    (h : s.step env c = some t) : ∃ keep new, s.Passes keep new t ∧
      (new = [] ∨ (∀ cid, keep cid = true) ∧ ∃ d, new = [d] ∧ c = .receive d.cid d.frame ∧ s.Takes env d.cid d.frame d t) := by
  have hcalm : ∀ {t}, s.Calm t → ∃ keep new, s.Passes keep new t ∧ (new = [] ∨ (∀ cid, keep cid = true) ∧
      ∃ d, new = [d] ∧ c = .receive d.cid d.frame ∧ s.Takes env d.cid d.frame d t) :=
    fun ht => ⟨_, _, ht.passes, .inl rfl⟩
  cases c with
  | connected cid =>
    simp only [step] at h
    split at h
    · cases h
    · rename_i hn
      cases h
      refine hcalm (.same rfl rfl (fun {x c} hx => ⟨c, ?_, rfl⟩))
      rw [connected, setConnection, IndexMap.get_insert]
      split
      · rename_i he
        exact absurd (IndexMap.contains_iff.2 ⟨c, he ▸ hx⟩) hn
      · exact hx
  | receive cid frame =>
    cases Out.all_of_state (receive_receipt env s cid frame hk) h with
    | calm h => exact hcalm h
    | queued h =>
      rename_i d
      obtain ⟨hcid, hframe, -⟩ := h.entry
      subst hcid hframe
      exact ⟨_, _, h.passes, .inr ⟨fun _ => rfl, d, rfl, rfl, h⟩⟩
    | login hc hp h =>
      obtain ⟨keep, hpass⟩ := h.passes hc hp
      exact ⟨keep, [], hpass, .inl rfl⟩
  | disconnect cid =>
    by_cases hs : (s.connections.get cid).isSome
    · exact ⟨_, _, Out.all_of_state (disconnect_passes env s cid hs) h, .inl rfl⟩
    · have hn : s.connections.get cid = none := by simpa using hs
      have h : s.disconnect env cid = .ok s := by unfold disconnect; rw [hn]
      rename_i hstep
      simp only [step, h, Out.state] at hstep
      cases hstep
      exact hcalm (.same rfl rfl (fun {_ c} h => ⟨c, h, rfl⟩))
  | sweep => exact absurd rfl hc

/-! Sweeps. -/

/-- May the frame act now that its turn has come? -/
def acts (s : Server) (d : Delayed) : Bool :=
  (s.connections.get d.cid).any (fun c => (s.setConnection d.cid (unqueue d c)).mayRun d c)

/-- A due frame's turn: it is executed or discarded. -/
def turn (env : Env) (s : Server) (d : Delayed) : Out Server :=
  match s.connections.get d.cid with
  | none => .ok s
  | some c =>
    let t := s.setConnection d.cid (unqueue d c)
    if s.acts d then t.dispatch env d.cid d.frame none else .ok t

theorem runDelayed_cons (env : Env) (s : Server) (d : Delayed) (ds : List Delayed) :
    runDelayed env (d :: ds) s = if env.now < d.time then runDelayed env ds { s with delayed := s.delayed ++ [d] }
      else Out.andThen (s.turn env d) (runDelayed env ds) := by
  rw [runDelayed]
  unfold turn acts
  split
  · rfl
  · cases s.connections.get d.cid with
    | none => rfl
    | some c =>
      dsimp only
      rw [Option.any_some]
      split <;> rfl

omit [Extern] in
/-- **A frame that acts** is its account's, whose current connection it came on, unchanged since if it is room-scoped. -/
theorem acts_current {s : Server} {d : Delayed} (h : s.acts d = true) : ∃ c id b, s.connections.get d.cid = some c ∧
    c.closing = false ∧ c.player = some id ∧ s.players.get id = some b ∧ b.connection = some d.cid ∧
    (d.roomScoped = true → b.version = d.version) := by
  obtain ⟨c, hc, hrun⟩ := (Option.any_eq_true _ _).1 h
  unfold mayRun at hrun
  obtain ⟨b, hb, hcond⟩ := (Option.any_eq_true _ _).1 hrun
  obtain ⟨id, hid, hb⟩ := Option.bind_eq_some_iff.1 hb
  simp only [Bool.and_eq_true, Bool.not_eq_true', decide_eq_true_eq, Bool.or_eq_true] at hcond
  refine ⟨c, id, b, hc, hcond.1.1, hid, hb, hcond.1.2, fun hs => ?_⟩
  rcases hcond.2 with hn | hv
  · rw [hs] at hn
    cases hn
  · exact hv

/-- A turn leaves the delay queue alone and keeps what is current. -/
theorem turn_calm (env : Env) (s : Server) (d : Delayed) : (s.turn env d).All s.Calm := by
  have hrefl : s.Calm s := .same rfl rfl (fun {_ c} h => ⟨c, h, rfl⟩)
  unfold turn
  split
  · exact hrefl
  rename_i c hc
  dsimp only
  have hset : Emits true Message.Plain s (s.setConnection d.cid (unqueue d c)) := .setConnection hc rfl rfl
  refine Out.all_ite (fun hacts => ?_) (fun _ => hset.isCalm)
  obtain ⟨c', id, b, hc', -, hid, -⟩ := acts_current hacts
  rw [hc] at hc'
  cases hc'
  have hp : ((s.setConnection d.cid (unqueue d c)).connections.get d.cid).bind (·.player) = some id := by
    rw [setConnection, IndexMap.get_insert_self]
    exact hid
  exact (dispatch_emits env _ d.cid d.frame none hp).mono (fun t ht => hset.isCalm.trans ht.isCalm)

/-- The errors of a frame's method are answered. -/
theorem turn_ok {env : Env} {s t : Server} {d : Delayed} (h : (s.turn env d).state = some t) : s.turn env d = .ok t := by
  have hrep : ∀ (cid : Nat) (o : Out Server), (reportErr cid o).state = some t → reportErr cid o = .ok t := fun cid o ho => by
    cases o <;> cases ho <;> rfl
  unfold turn at h ⊢
  split at h
  · cases h; rfl
  dsimp only at h ⊢
  split at h
  · rename_i hacts
    rw [if_pos hacts]
    unfold dispatch at h ⊢
    split at h
    · cases h; rfl
    split at h
    · cases hv : (none : Option Value).or (Protocol.parse _) with
      | none => rw [hv] at h; cases h
      | some v => rw [hv] at h; exact hrep _ _ h
    · exact hrep _ _ h
    · cases h; rfl
    · cases h; rfl
  · rename_i hacts
    rw [if_neg hacts]
    cases h; rfl

/-- **The frames that are due leave the queue**, and nothing else does. -/
theorem runDelayed_queue (env : Env) : ∀ (ds : List Delayed) (s t : Server), (runDelayed env ds s).state = some t →
    runDelayed env ds s = .ok t ∧ t.delayed = s.delayed ++ ds.filter (fun d => decide (env.now < d.time)) ∧
      s.Calm { t with delayed := s.delayed }
  | [], s, t, h => by
    cases h
    exact ⟨rfl, (List.append_nil _).symm, .same rfl rfl (fun {_ c} h => ⟨c, h, rfl⟩)⟩
  | d :: ds, s, t, h => by
    rw [runDelayed_cons] at h ⊢
    split at h
    · rename_i hlt
      obtain ⟨hok, hd, hcalm⟩ := runDelayed_queue env ds _ t h
      rw [if_pos hlt, List.filter_cons_of_pos (by simpa using hlt)]
      exact ⟨hok, by rw [hd, List.append_assoc]; rfl, rfl, hcalm.players, hcalm.bound⟩
    · rename_i hdue
      rw [if_neg hdue, List.filter_cons_of_neg (by simpa using hdue)]
      have hcalm := turn_calm env s d
      cases hu : s.turn env d with
      | ok u =>
        rw [hu] at h hcalm
        obtain ⟨hok, hd, hrest⟩ := runDelayed_queue env ds u t h
        refine ⟨hok, by rw [hd, hcalm.delayed], ?_⟩
        have hlast : s.Calm { t with delayed := u.delayed } := Calm.trans hcalm hrest
        exact ⟨rfl, hlast.players, hlast.bound⟩
      | err u =>
        have hstate : (s.turn env d).state = some u := by rw [hu]; rfl
        rw [turn_ok hstate] at hu
        cases hu
      | halt _ => rw [hu] at h; cases h

/-- **A sweep** takes the frames that are due out of the queue. -/
theorem sweep_queue {env : Env} {s t : Server} (h : (s.sweep env).state = some t) :
    (∃ u, runDelayed env s.delayed { s with delayed := [] } = .ok u) ∧
      t.delayed = s.delayed.filter (fun d => decide (env.now < d.time)) ∧ s.Holds (fun _ => true) t := by
  unfold sweep at h
  have hrun : ∀ u, (runDelayed env s.delayed { s with delayed := [] }).state = some u →
      runDelayed env s.delayed { s with delayed := [] } = .ok u ∧
      u.delayed = s.delayed.filter (fun d => decide (env.now < d.time)) ∧ s.Calm { u with delayed := s.delayed } := fun u hu => by
    obtain ⟨hok, hd, hcalm⟩ := runDelayed_queue env _ _ u hu
    exact ⟨hok, hd.trans (List.nil_append _), rfl, hcalm.players, hcalm.bound⟩
  cases ho : runDelayed env s.delayed { s with delayed := [] } with
  | ok u =>
    obtain ⟨-, hd, hcalm⟩ := hrun u (by rw [ho]; rfl)
    rw [ho] at h
    have hv : u.Calm t := by
      refine Out.all_of_state ?_ h
      show Out.All u.Calm (Out.andThen (u.sweepRooms env) _)
      refine Out.all_andThen (P := u.Calm) ?_ (fun v hv => ?_) (fun _ hv => hv)
      · unfold sweepRooms
        dsimp only
        refine (keepEmpty_emits env _ _).mono (fun v hv => Calm.trans ?_ hv.isCalm)
        exact .same rfl rfl (fun {_ c} h => ⟨c, h, rfl⟩)
      · have hconn := sweepConnections_emits env v.connections.keys v false
        generalize sweepConnections env v.connections.keys v false = o at hconn
        cases o with
        | ok x =>
          obtain ⟨w, heartbeat⟩ := x
          have hw := hv.trans (Emits.isCalm hconn)
          refine Calm.trans ?_ (expire_emits (P := Message.Plain) _ env.now).isCalm
          cases heartbeat
          · exact hw
          · have hcast : Emits true Message.Plain w
                (w.rooms.values.foldl (fun s r => s.broadcast r (s.roomRtt r) none none) w) :=
              .foldl (fun s r => emits_broadcast s r none none (plain_text (by decide))) _ w
            exact hw.trans hcast.isCalm
        | err x => exact hv.trans (Emits.isCalm hconn)
        | halt h => trivial
    refine ⟨⟨u, rfl⟩, hv.delayed.trans hd, ?_⟩
    have hlast : s.Calm { t with delayed := s.delayed } := hcalm.trans ⟨rfl, hv.players, hv.bound⟩
    exact ⟨hlast.holds.bound, hlast.holds.players⟩
  | err u =>
    obtain ⟨hok, -⟩ := hrun u (by rw [ho]; rfl)
    rw [ho] at hok
    cases hok
  | halt _ => rw [ho] at h; cases h

end Server
end Relay
