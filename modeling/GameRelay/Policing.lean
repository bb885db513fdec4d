import GameRelay.Edits
import GameRelay.Heartbeats
import GameRelay.Budgets
/-!
# Policing — when the server closes a connection

The server counts the frames of a connection in windows of a second, and notes when the last one came.  Only frames change
what it notes (`receive_polices`, `sweep_polices`), so over a run it is read off the frames taken (`Policed`).  Hence
**connections are closed for cause** (`connections_are_policed`): a queue that overflowed, too many frames, too large or
too many delayed ones, a refused or a replaced session, or a deadline; and the rate and the deadlines always do close.
-/
namespace Relay

variable [Extern]

/-- What the server notes of a connection's frames. -/
structure Meter where
  created : Nat
  activity : Nat
  rateAt : Nat
  messages : Nat

omit [Extern] in
def Connection.meter (c : Connection) : Meter := ⟨c.created, c.activity, c.rateAt, c.messages⟩

/-- What a connection that is still there keeps; `why` lets it close, and `free` lets one that was not bound be bound. -/
structure Connection.Stands (why free : Prop) (c c' : Connection) : Prop where
  meter : c'.meter = c.meter
  player : c'.player = c.player ∨ (c.player = none ∧ free)
  closing : c.closing = true → c'.closing = true
  abort : c.abort = true → c'.abort = true
  cause : c'.closing = true → c.closing = true ∨ c'.abort = true ∨ why

namespace Connection.Stands

variable {why free : Prop} {c c' c'' : Connection}

omit [Extern] in
theorem refl (c : Connection) : Stands why free c c := ⟨rfl, .inl rfl, id, id, .inl⟩

omit [Extern] in
theorem trans (h : Stands why free c c') (h' : Stands why free c' c'') : Stands why free c c'' := by
  refine ⟨h'.meter.trans h.meter, ?_, fun hc => h'.closing (h.closing hc), fun ha => h'.abort (h.abort ha), fun hc => ?_⟩
  · rcases h'.player with hp | ⟨hp, hf⟩
    · rw [hp]
      exact h.player
    · rcases h.player with hp₀ | ⟨hp₀, -⟩
      · exact .inr ⟨hp₀ ▸ hp, hf⟩
      · exact .inr ⟨hp₀, hf⟩
  · rcases h'.cause hc with hc' | ha | hw
    · rcases h.cause hc' with hc₀ | ha | hw
      · exact .inl hc₀
      · exact .inr (.inl (h'.abort ha))
      · exact .inr (.inr hw)
    · exact .inr (.inl ha)
    · exact .inr (.inr hw)

omit [Extern] in
theorem bound (h : Stands why False c c') : Stands why free c c' :=
  ⟨h.meter, .inl (h.player.resolve_right (fun hf => hf.2)), h.closing, h.abort, h.cause⟩

omit [Extern] in
theorem of_closed (hp : c'.player = c.player) (hm : c'.meter = c.meter) (ha : c.abort = true → c'.abort = true)
    (hc : c.closing = true → c'.closing = true) (hw : why) : Stands why free c c' :=
  ⟨hm, .inl hp, hc, ha, fun _ => .inr (.inr hw)⟩

theorem of_edit (h : c.Edit c') : Stands why False c c' := by
  cases h with
  | queued msg hc hm =>
    exact ⟨rfl, .inl rfl, (fun h => absurd (hc.symm.trans h) (by decide)), id, fun h => absurd (hm.symm.trans h) (by decide)⟩
  | unread msg hc hm =>
    exact ⟨rfl, .inl rfl, (fun h => absurd (hc.symm.trans h) (by decide)), id, fun h => absurd (hm.symm.trans h) (by decide)⟩
  | overflowed => exact ⟨rfl, .inl rfl, fun _ => rfl, fun _ => rfl, fun _ => .inr (.inl rfl)⟩
  | rekeyed => exact ⟨rfl, .inl rfl, id, id, .inl⟩
  | ponged => exact ⟨rfl, .inl rfl, id, id, .inl⟩
  | waiting => exact ⟨rfl, .inl rfl, id, id, .inl⟩

/-- **What no edit changes, no message does.** -/
theorem of_edits (h : c.Edits c') : Stands why False c c' := by
  induction h with
  | refl => exact .refl c
  | tail _ he ih => exact ih.trans (of_edit he)

end Connection.Stands

/-- A Ping is only ever cleared. -/
theorem Connection.Edits.ping {c c' : Connection} (h : c.Edits c') {a : Nat} (ha : c'.ping = some a) : c.ping = some a := by
  induction h with
  | refl => exact ha
  | tail _ he ih =>
    cases he with
    | ponged => cases ha
    | _ => exact ih ha

/-- A frame that was let through, and when the window it counts in was opened. -/
structure Taken where
  time : Nat
  window : Nat

namespace Server

/-- Every connection that is still there stands; `why` says which may close. -/
structure Polices (why : Nat → Prop) (free : Prop) (s t : Server) : Prop where
  stands : ∀ {cid c'}, t.connections.get cid = some c' →
    ∃ c, s.connections.get cid = some c ∧ Connection.Stands (why cid) free c c'

namespace Polices

variable {why : Nat → Prop} {free : Prop} {s t u : Server}

omit [Extern] in
theorem refl (s : Server) : Polices why free s s := ⟨fun h => ⟨_, h, .refl _⟩⟩

omit [Extern] in
theorem trans (h : Polices why free s t) (h' : Polices why free t u) : Polices why free s u := ⟨fun hu => by
  obtain ⟨c₁, hc₁, hs₁⟩ := h'.stands hu
  obtain ⟨c, hc, hs⟩ := h.stands hc₁
  exact ⟨c, hc, hs.trans hs₁⟩⟩

omit [Extern] in
theorem bound (h : Polices why False s t) : Polices why free s t := ⟨fun ht => by
  obtain ⟨c, hc, hs⟩ := h.stands ht
  exact ⟨c, hc, hs.bound⟩⟩

theorem revises (h : s.Revises t) : Polices why False s t := ⟨fun ht => by
  obtain ⟨c, hc, he⟩ := h.edits ht
  exact ⟨c, hc, .of_edits he⟩⟩

omit [Extern] in
theorem same (h : t.connections = s.connections) : Polices why free s t := ⟨fun ht => ⟨_, h ▸ ht, .refl _⟩⟩

omit [Extern] in
theorem cause (h : Polices why free s t) {cid : Nat} {c c' : Connection} (hc : s.connections.get cid = some c)
    (hc' : t.connections.get cid = some c') (hopen : c.closing = false) (hcl : c'.closing = true) :
    c'.abort = true ∨ why cid := by
  obtain ⟨c₀, hc₀, hstand⟩ := h.stands hc'
  cases hc.symm.trans hc₀
  exact (hstand.cause hcl).resolve_left (fun hclosing => absurd (hopen.symm.trans hclosing) (by decide))

omit [Extern] in
theorem setConnection {cid : Nat} {c c' : Connection} (hc : s.connections.get cid = some c)
    (h : Connection.Stands (why cid) free c c') : Polices why free s (s.setConnection cid c') := by
  refine ⟨fun {x d} hd => ?_⟩
  rw [Server.setConnection, IndexMap.get_insert] at hd
  split at hd
  · rename_i hx
    cases hd
    exact ⟨c, hx ▸ hc, hx ▸ h⟩
  · exact ⟨d, hd, .refl d⟩

/-- A connection is closed, that may close or is closing. -/
theorem close_open (s : Server) {cid : Nat} (hw : ∀ c, s.connections.get cid = some c → c.closing = false → why cid)
    (code : Nat) (reason : String) : Polices why free s (s.close cid code reason) := by
  unfold Server.close raw
  split
  · exact .refl s
  rename_i c hc
  dsimp only
  have hlog : Polices why free s { s with offered := s.offered ++ [(cid, .close code reason)] } := .same rfl
  split
  · exact hlog
  rename_i hopen
  have put : ∀ {c' : Connection}, c'.player = c.player → c'.meter = c.meter → (c.abort = true → c'.abort = true) →
      c'.closing = true →
      Polices why free s (Server.setConnection { s with offered := s.offered ++ [(cid, .close code reason)] } cid c') :=
    fun hp hm ha hcl => hlog.trans
      (.setConnection hc (.of_closed hp hm ha (fun _ => hcl) (hw c hc (eq_false_of_ne_true hopen))))
  split
  · exact put rfl rfl (fun _ => rfl) rfl
  · split <;> exact put rfl rfl id rfl

theorem close (s : Server) {cid : Nat} (hw : why cid) (code : Nat) (reason : String) :
    Polices why free s (s.close cid code reason) := close_open s (fun _ _ _ => hw) code reason

end Polices

/-! Why a connection may close. -/

/-- The window under way has let `limit` frames through. -/
def Full (limit now : Nat) (l : List Taken) : Prop :=
  ∃ w, w ≤ now ∧ now < w + 1000 ∧ l.countP (fun x => decide (x.window = w)) = limit

/-- When the last frame was taken, or the connection came. -/
def lastTaken (c : Connection) (l : List Taken) : Nat := (l.getLast?.map Taken.time).getD c.created

/-- The authentication is turned away: there is no room for a new account, or no such account, or another password. -/
def TurnsAway (env : Env) (t : Server) (d : Value) : Prop :=
  if (d.get "playerId").isNone && (d.get "password").isNone then t.config.maxAccounts ≤ t.players.size
  else t.retainedAccount env (authKey d) = .ok none ∨
    ∃ p, t.retainedAccount env (authKey d) = .ok (some p) ∧ p.password ≠ authPassword d

/-- The command gives cause to close the connection; `l` are the frames taken so far. -/
inductive Cause (env : Env) (s : Server) (l : Nat → List Taken) : Command → Nat → Prop
  | overdrawn {cid : Nat} {frame : Frame} {c : Connection} (hc : s.connections.get cid = some c)
      (hcur : s.isCurrent cid c = true) (h : Full s.config.maxMessagesPerSecond env.now (l cid)) :
      Cause env s l (.receive cid frame) cid
  | large {cid : Nat} {frame : Frame} {c : Connection} (ha : s.Accepts env cid c)
      (h : s.config.maxPayloadBytes < frame.len) : Cause env s l (.receive cid frame) cid
  | backlog {cid : Nat} {frame : Frame} {c : Connection} (ha : s.Accepts env cid c) (hd : 0 < s.config.sendDelayMs)
      (h : s.config.maxBufferedBytes < c.delayed + frame.len ∨ s.config.maxMessagesPerSecond ≤ c.pending) :
      Cause env s l (.receive cid frame) cid
  | refused {cmd : Command} {t : Server} {cid : Nat} {d : Value} (ha : s.Authenticates env cmd t cid d)
      (h : (t.expire env.now).TurnsAway env d) : Cause env s l cmd cid
  | replaced {cmd : Command} {t : Server} {x cid : Nat} {d : Value} {p : Player} (ha : s.Authenticates env cmd t x d)
      (hp : (t.expire env.now).Returns d p) (h : p.connection = some cid) : Cause env s l cmd cid
  | late {cid : Nat} {c : Connection} (hc : s.connections.get cid = some c) (hp : c.player = none)
      (h : s.config.authTimeoutMs ≤ env.now - c.created) : Cause env s l .sweep cid
  | silent {cid : Nat} {c : Connection} (hc : s.connections.get cid = some c) (hp : c.player ≠ none)
      (h : s.config.idleTimeoutMs ≤ env.now - lastTaken c (l cid)) : Cause env s l .sweep cid
  | unanswered {cid a : Nat} {c : Connection} (hc : s.connections.get cid = some c) (hp : c.player ≠ none)
      (hping : c.ping = some a) (h : s.config.idleTimeoutMs ≤ env.now - a) : Cause env s l .sweep cid

/-! Authentication. -/

section Authentication

variable {env : Env} {s : Server} {l : Nat → List Taken} {cmd : Command} {t : Server} {cid : Nat} {d : Value}

omit [Extern] in
/-- Leaving a room keeps the connections of accounts. -/
theorem Left.connection {p : String} {disconnected : Bool} {w w' : World} (h : w.Left p disconnected w') {id : String}
    {q' : Seat} (hq : w'.seats id = some q') : ∃ q, w.seats id = some q ∧ q'.connection = q.connection := by
  have released : ∀ {ids : List String} {q' : Seat}, releaseAll w.seats ids id = some q' →
      ∃ q, w.seats id = some q ∧ q'.connection = q.connection := fun hx => by
    rcases releaseAll_some hx with ⟨-, hx⟩ | ⟨-, q, hq, rfl⟩
    · exact ⟨_, hx, rfl⟩
    · exact ⟨q, hq, rfl⟩
  cases h with
  | slept _ _ _ _ _ hs => cases hs; exact released hq
  | _ => exact released hq

/-- The account's connection, after it left the fixed game it was inside. -/
theorem leave_connection (env : Env) {t : Server} (hk : t.world.Keyed) (p : String) (disconnected : Bool) :
    (t.leave env p disconnected).All (fun u => ∀ id q', u.players.get id = some q' →
      ∃ q, t.players.get id = some q ∧ q'.connection = q.connection) := by
  refine (leave_left env t p disconnected hk).mono (fun u hu id q' hq' => ?_)
  obtain ⟨w, hleft, links, queue, -, -, hw⟩ := hu
  have hseat : w.seats id = some q'.seat := by
    have hsame : u.world.seats = w.seats := by rw [hw]
    rw [← hsame]
    exact seats_eq hq'
  obtain ⟨q, hq, hconn⟩ := Left.connection hleft hseat
  obtain ⟨p₀, hp₀, rfl⟩ := Option.map_eq_some_iff.1 (show (t.players.get id).map Player.seat = some q from hq)
  exact ⟨p₀, hp₀, hconn⟩

theorem polices_sendC {why : Nat → Prop} {free : Prop} (u : Server) (x : Nat) (v : Value) :
    Polices why free u (u.sendC x v) := (Polices.revises (revises_sendC u x)).bound

/-- An unbound connection is bound. -/
theorem polices_bind {why : Nat → Prop} {u : Server} (hun : ∀ c, u.connections.get cid = some c → c.player = none)
    (account : String) (created : Bool) : (u.bind env cid account created).All (Polices why True u) := by
  unfold bind
  refine Out.all_unwrap (fun p _ => ?_)
  dsimp only
  generalize ({ p with connection := some cid, offline := none, rtt := none } : Player) = p'
  refine Out.all_unwrap (fun c hc => ?_)
  have hstand : Connection.Stands (why cid) True c { c with player := some account } :=
    ⟨rfl, .inr ⟨hun c hc, trivial⟩, id, id, .inl⟩
  generalize ({ c with player := some account } : Connection) = c' at hstand
  have hset : ∀ st, Polices why True u { (u.setPlayer account p').setConnection cid c' with store := st } := fun st =>
    Polices.trans (Polices.setConnection hc hstand) (.same rfl)
  split
  · exact hset _
  · rename_i st _
    split
    all_goals
      refine Polices.trans ?_ (polices_sendC _ cid _)
      try refine Polices.trans ?_ (polices_sendC _ cid _)
      split
      · exact (hset st).trans (polices_sendC _ cid _)
      · exact hset st

/-- An account comes back: the connection it had may close. -/
theorem polices_reconnect (ha : s.Authenticates env cmd t cid d) (hk : (t.expire env.now).world.Keyed) {p : Player}
    (hp : (t.expire env.now).Returns d p ∨ (p.connection = none ∧ p.room = none))
    (hun : ∀ c, (t.expire env.now).connections.get cid = some c → c.player = none) :
    ((t.expire env.now).reconnect env cid p d).All (Polices (s.Cause env l cmd) True (t.expire env.now)) := by
  generalize ht₁ : t.expire env.now = t₁ at *
  unfold reconnect
  dsimp only
  generalize hu₀ : (if t₁.players.contains p.id then t₁ else t₁.setPlayer p.id p) = u₀
  have hcon₀ : u₀.connections = t₁.connections := by
    rw [← hu₀]
    split <;> rfl
  have hstart : Polices (s.Cause env l cmd) False t₁ u₀ := .same hcon₀
  -- the account's connection is the one that is replaced
  have hbind : ∀ (u : Server) (q : Player), Polices (s.Cause env l cmd) False t₁ u →
      (∀ old, q.connection = some old → s.Cause env l cmd old) →
      (bind env ((u.replaceSession q).setPlayer p.id (renamed q d)) cid p.id false).All
        (Polices (s.Cause env l cmd) True t₁) := by
    intro u q hu hq
    have hreplace : Polices (s.Cause env l cmd) False u ((u.replaceSession q).setPlayer p.id (renamed q d)) := by
      unfold replaceSession
      split
      · rename_i old hold
        exact Polices.trans (.close u (hq old hold) 1008 _) (.same rfl)
      · exact .same rfl
    have hall := hu.trans hreplace
    refine (polices_bind (fun c' hc' => ?_) p.id false).mono (fun v hv => hall.bound.trans hv)
    obtain ⟨c, hc, hs⟩ := hall.stands hc'
    exact (hs.player.resolve_right (fun h => h.2)).trans (hun c hc)
  split
  · rename_i hfixed
    have hp : t₁.Returns d p := by
      refine hp.resolve_right (fun h => ?_)
      rw [h.2] at hfixed
      cases hfixed
    have hget : t₁.players.get p.id = some p := by
      rw [show p.id = authKey d from hk.seats (seats_eq hp.1)]
      exact hp.1
    rw [if_pos (IndexMap.contains_iff.2 ⟨p, hget⟩)] at hu₀
    subst hu₀
    have hleave := revises_leave env t₁ p.id true
    have hconn := leave_connection env hk p.id true
    cases hu : t₁.leave env p.id true with
    | halt h => trivial
    | err u =>
      rw [hu] at hleave
      exact (Polices.revises hleave).bound
    | ok u =>
      rw [hu] at hleave hconn
      refine Out.all_unwrap (fun q hq => hbind u q (.revises hleave) (fun old hold => ?_))
      obtain ⟨q₀, hq₀, hsame⟩ := hconn p.id q hq
      cases hget.symm.trans hq₀
      exact .replaced ha (ht₁ ▸ hp) (hsame.symm.trans hold)
  · refine hbind u₀ p hstart (fun old hold => ?_)
    rcases hp with hp | hp
    · exact .replaced ha (ht₁ ▸ hp) hold
    · rw [hp.1] at hold
      cases hold

theorem polices_refused (ha : s.Authenticates env cmd t cid d) (h : (t.expire env.now).TurnsAway env d) :
    Polices (s.Cause env l cmd) True (t.expire env.now) ((t.expire env.now).authenticationFailed cid) :=
  (polices_sendC _ cid _).trans (.close _ (.refused ha h) 1008 _)

/-- **Authentication closes what it turns away or replaces.** -/
theorem polices_auth (ha : s.Authenticates env cmd t cid d) (hk : t.world.Keyed)
    (hun : ∀ c, t.connections.get cid = some c → c.player = none) :
    (t.auth env cid d).All (Polices (s.Cause env l cmd) True t) := by
  have hexp : Polices (s.Cause env l cmd) True t (t.expire env.now) := .same (expire_connections t env.now)
  have hk₁ : (t.expire env.now).world.Keyed := PlayedBy.keyed (expire_done hk env.now : PlayedBy env s cmd _ _) hk
  have hun₁ : ∀ c, (t.expire env.now).connections.get cid = some c → c.player = none := fun c hc => by
    rw [expire_connections] at hc
    exact hun c hc
  unfold auth
  dsimp only
  refine Out.all_ite (fun hanon => Out.all_ite (fun hfull => ?_) (fun _ => ?_)) (fun hanon => ?_)
  · have haway : (t.expire env.now).TurnsAway env d := by
      unfold TurnsAway
      rw [if_pos hanon]
      exact hfull
    exact hexp.trans ((polices_sendC _ cid _).trans (.close _ (.refused ha haway) 1008 _))
  · unfold drawId
    refine Out.all_ite (fun _ => trivial) (fun _ => ?_)
    generalize hu : ({ t.expire env.now with draws := (t.expire env.now).draws + 1, drawn :=
      (env.uuid (t.expire env.now).draws).text :: (t.expire env.now).drawn } : Server) = u
    have hdraw : Polices (s.Cause env l cmd) True t u := by
      rw [← hu]
      exact hexp.trans (.same rfl)
    refine (polices_bind (u := u.setPlayer _ _) (fun c hc => ?_) _ true).mono
      (fun v hv => hdraw.trans (Polices.trans (t := u.setPlayer _ _) (.same rfl) hv))
    rw [← hu] at hc
    exact hun₁ c hc
  · have haway : (t.expire env.now).retainedAccount env (authKey d) = .ok none ∨
        (∃ p, (t.expire env.now).retainedAccount env (authKey d) = .ok (some p) ∧ p.password ≠ authPassword d) →
        (t.expire env.now).TurnsAway env d := fun h => by
      unfold TurnsAway
      rw [if_neg hanon]
      exact h
    split
    · exact hexp
    · rename_i hret
      exact hexp.trans (polices_refused ha (haway (.inl hret)))
    · rename_i p hret
      refine Out.all_ite (fun hpw => hexp.trans (polices_refused ha (haway (.inr ⟨p, hret, hpw⟩)))) (fun hpw => ?_)
      refine (polices_reconnect ha hk₁ ?_ hun₁).mono (fun u hu => hexp.trans hu)
      unfold retainedAccount at hret
      split at hret
      · rename_i hp'
        cases hret
        exact .inl ⟨hp', not_not.1 hpw⟩
      · split at hret
        · exact .inr (account_shape hret)
        · cases hret

end Authentication

/-! Frames. -/

section Frames

variable {env : Env} {s : Server} {l : Nat → List Taken} {cid : Nat} {frame : Frame} {c : Connection}

/-- The frame is counted, if it is looked at. -/
def noted (env : Env) (s : Server) (cid : Nat) : Server :=
  match s.connections.get cid with
  | none => s
  | some c => if c.closing || !s.isCurrent cid c then s else s.setConnection cid (countFrame c env.now)

/-- A frame is executed now, or queued while there is room. -/
theorem polices_submit (ha : s.Accepts env cid c) (p : String) (roomScoped immediate : Bool) (parsed : Option Value) :
    ((s.setConnection cid (countFrame c env.now)).submit env cid p frame roomScoped immediate parsed).All
      (Polices (s.Cause env l (.receive cid frame)) True (s.setConnection cid (countFrame c env.now))) := by
  have hget : (s.setConnection cid (countFrame c env.now)).connections.get cid = some (countFrame c env.now) :=
    IndexMap.get_insert_self _ _ _
  have hconf : (s.setConnection cid (countFrame c env.now)).config = s.config := rfl
  have hdelayed : (countFrame c env.now).delayed = c.delayed := rfl
  have hpending : (countFrame c env.now).pending = c.pending := rfl
  generalize s.setConnection cid (countFrame c env.now) = t at *
  generalize countFrame c env.now = k at *
  unfold submit
  refine Out.all_ite (fun hdelay => Out.all_unwrap (fun k' hk' => ?_)) (fun _ => ?_)
  · cases hget.symm.trans hk'
    rw [Bool.and_eq_true, decide_eq_true_eq] at hdelay
    refine Out.all_ite (fun hfull => ?_) (fun _ => Out.all_unwrap (fun player _ => ?_))
    · rw [hconf, hdelayed, hpending] at hfull
      exact Polices.close t (.backlog ha (hconf ▸ hdelay.1) hfull) 1008 _
    · have hwait : k.Edit { k with delayed := k.delayed + frame.len, pending := k.pending + 1 } := .waiting k _ _
      exact Polices.trans (Polices.setConnection hget (Connection.Stands.of_edit hwait).bound) (.same rfl)
  · exact (revises_dispatch env t cid frame parsed).mono (fun u hu => (Polices.revises hu).bound)

/-- **Receiving a frame counts it, and closes for cause.** -/
theorem receive_polices (env : Env) (s : Server) (cid : Nat) (frame : Frame) (hk : s.world.Keyed)
    (hfull : ∀ c, s.connections.get cid = some c → c.closing = false →
      s.config.maxMessagesPerSecond < (countFrame c env.now).messages → Full s.config.maxMessagesPerSecond env.now (l cid)) :
    (s.receive env cid frame).All (Polices (s.Cause env l (.receive cid frame)) True (s.noted env cid)) := by
  have hnoted : (∀ c, s.connections.get cid = some c → (c.closing || !s.isCurrent cid c) = true) → s.noted env cid = s :=
    fun h => by
      unfold noted
      split
      · rfl
      · rename_i hc
        exact if_pos (h _ hc)
  unfold receive
  split
  · rename_i hc
    rw [hnoted (fun c hc' => by rw [hc] at hc'; cases hc')]
    exact Polices.refl s
  rename_i c hc
  split
  · rename_i hshut
    rw [hnoted (fun c' hc' => by cases hc.symm.trans hc'; exact hshut)]
    exact Polices.refl s
  rename_i hopen
  have hcount : s.noted env cid = s.setConnection cid (countFrame c env.now) := by
    unfold noted
    rw [hc]
    exact if_neg hopen
  simp only [Bool.or_eq_true, Bool.not_eq_true', not_or, Bool.not_eq_true, Bool.not_eq_false] at hopen
  rw [hcount]
  dsimp only
  have hget : (s.setConnection cid (countFrame c env.now)).connections.get cid = some (countFrame c env.now) :=
    IndexMap.get_insert_self _ _ _
  split
  · rename_i hover
    exact Polices.close _ (.overdrawn hc hopen.2 (hfull c hc hopen.1 hover)) 1008 _
  rename_i hrate
  have ha : s.Accepts env cid c := ⟨hc, hopen.1, hopen.2, Nat.le_of_not_lt hrate⟩
  have hw : (s.setConnection cid (countFrame c env.now)).world = s.world := world_setConnection_same hc rfl
  have herror : ∀ code, Polices (s.Cause env l (.receive cid frame)) True (s.setConnection cid (countFrame c env.now))
      ((s.setConnection cid (countFrame c env.now)).error cid code) := fun code => polices_sendC _ cid _
  split
  · exact (Polices.revises (revises_raw _ cid rfl)).bound
  · exact Polices.refl _
  · rename_i txt
    split
    · rename_i hlarge
      exact Polices.close _ (.large ha hlarge) 1009 _
    rename_i hsize
    unfold receiveText
    split
    · exact herror _
    rename_i v hparse
    split
    · exact herror _
    rename_i hvalid
    split
    · exact herror _
    rename_i hlen
    refine Out.all_unwrap (fun m hm => ?_)
    split
    · rename_i hp
      split
      · rename_i hauth
        have hv : s.Valid txt v "authenticate" := ⟨hparse, eq_true_of_ne_false hvalid, hauth ▸ hm⟩
        have hauths : s.Authenticates env (.receive cid (.text txt)) (s.setConnection cid (countFrame c env.now)) cid
            (v.idx "data") := .mk ha hp (Nat.le_of_not_lt hsize) hv (Nat.le_of_not_lt hlen)
        refine reportErr_all (polices_auth hauths (by rw [hw]; exact hk) (fun c' hc' => ?_)) (fun _ h => h)
          (fun u h => h.trans (polices_sendC u cid _))
        cases hget.symm.trans hc'
        exact hp
      · exact herror _
    · split
      · exact herror _
      · exact polices_submit ha _ _ _ _
  · split
    · rename_i hlarge
      exact Polices.close _ (.large ha hlarge) 1009 _
    · split
      · exact herror _
      · split
        · exact herror _
        · exact polices_submit ha _ _ _ _

end Frames

/-! Maintenance. -/

section Maintenance

variable {env : Env}

omit [Extern] in
/-- The connection's time is up. -/
def Overdue (config : Config) (now : Nat) (c : Connection) : Prop :=
  Due config now c ∨ (c.player ≠ none ∧ config.idleTimeoutMs ≤ now - c.activity)

/-- One connection's turn: it is closed exactly when its time is up. -/
theorem polices_sweepConnection {why : Nat → Prop} {u : Server} {cid : Nat} {c : Connection}
    (hc : u.connections.get cid = some c) (hw : c.closing = false → Overdue u.config env.now c → why cid) :
    Polices why False u (u.sweepConnection env cid c).1 ∧ (Overdue u.config env.now c →
      ∀ c', (u.sweepConnection env cid c).1.connections.get cid = some c' → c'.closing = true) := by
  have hclose : Overdue u.config env.now c → ∀ reason, Polices why False u (u.close cid 1008 reason) ∧
      (Overdue u.config env.now c → ∀ c', (u.close cid 1008 reason).connections.get cid = some c' → c'.closing = true) :=
    fun hdue reason => ⟨.close_open u (fun c' hc' hopen => by cases hc.symm.trans hc'; exact hw hopen hdue) 1008 reason,
      fun _ _ hc' => closing_close u cid 1008 reason hc'⟩
  unfold sweepConnection
  dsimp only
  split
  · rename_i hnone
    have hnone : c.player = none := Option.isNone_iff_eq_none.1 hnone
    split
    · rename_i hlate
      exact hclose (.inl (.inl ⟨hnone, hlate⟩)) _
    · rename_i hearly
      refine ⟨.refl u, fun hdue => ?_⟩
      rcases hdue with (⟨-, hlate⟩ | ⟨hp, -⟩) | ⟨hp, -⟩
      · exact absurd hlate hearly
      · exact absurd hnone hp
      · exact absurd hnone hp
  · rename_i hsome
    have hbound : c.player ≠ none := fun h => hsome (Option.isNone_iff_eq_none.2 h)
    have hset : ∀ c' : Connection, c'.player = c.player → c'.meter = c.meter → c'.closing = c.closing → c'.abort = c.abort →
        Polices why False u (u.setConnection cid c') := fun c' hp hm hcl hab =>
      .setConnection hc ⟨hm, .inl hp, (fun h => hcl.trans h), (fun h => hab.trans h), fun h => .inl (hcl.symm.trans h)⟩
    split
    · rename_i hidle
      refine hclose ?_ _
      rw [Bool.or_eq_true, decide_eq_true_eq, Option.any_eq_true] at hidle
      rcases hidle with hidle | ⟨a, ha, hidle⟩
      · exact .inr ⟨hbound, hidle⟩
      · exact .inl (.inr ⟨hbound, a, ha, of_decide_eq_true hidle⟩)
    · rename_i hidle
      have hearly : ¬ Overdue u.config env.now c := by
        rintro ((⟨hp, -⟩ | ⟨-, a, ha, hdue⟩) | ⟨-, hdue⟩)
        · exact hbound hp
        · refine hidle ?_
          rw [Bool.or_eq_true, Option.any_eq_true]
          exact .inr ⟨a, ha, decide_eq_true hdue⟩
        · refine hidle ?_
          rw [Bool.or_eq_true]
          exact .inl (decide_eq_true hdue)
      refine ⟨?_, fun hdue => absurd hdue hearly⟩
      split
      · split
        · exact (hset { c with lastPing := env.now, ping := some env.now } rfl rfl rfl rfl).trans (polices_sendC _ cid _)
        · exact hset { c with lastPing := env.now } rfl rfl rfl rfl
      · exact .refl u

theorem polices_sweepConnections (env : Env) (why : Nat → Prop) : ∀ (cids : List Nat) (u : Server) (heartbeat : Bool), cids.Nodup →
    (∀ cid ∈ cids, ∀ c, u.connections.get cid = some c → c.closing = false → Overdue u.config env.now c → why cid) →
    (sweepConnections env cids u heartbeat).All (fun x => Polices why False u x.1 ∧
      ∀ cid ∈ cids, ∀ c, u.connections.get cid = some c → Overdue u.config env.now c →
        ∀ c', x.1.connections.get cid = some c' → c'.closing = true)
  | [], u, heartbeat, _, _ => ⟨.refl u, fun _ h => absurd h List.not_mem_nil⟩
  | cid :: cids, u, heartbeat, hn, hw => by
    obtain ⟨hnew, hn⟩ := List.nodup_cons.1 hn
    unfold sweepConnections
    refine Out.all_unwrap (fun c hc => ?_)
    obtain ⟨hconf, -, -, hother⟩ := sweepConnection_turn env u hc
    obtain ⟨hpol, hcl⟩ := polices_sweepConnection hc (hw cid List.mem_cons_self c hc)
    have hsame : ∀ y ∈ cids, (u.sweepConnection env cid c).1.connections.get y = u.connections.get y := fun y hy =>
      hother y (fun h => hnew (h ▸ hy))
    generalize (u.sweepConnection env cid c).1 = v at *
    refine (polices_sweepConnections env why cids v _ hn (fun y hy k hk hopen hdue => ?_)).mono (fun x hx => ?_)
    · rw [hsame y hy] at hk
      exact hw y (List.mem_cons_of_mem _ hy) k hk hopen (hconf ▸ hdue)
    · obtain ⟨hpol', hcl'⟩ := hx
      refine ⟨hpol.trans hpol', fun y hy k hk hdue k' hk' => ?_⟩
      rcases List.mem_cons.1 hy with rfl | hy
      · cases hc.symm.trans hk
        obtain ⟨k₁, hk₁, hstand⟩ := hpol'.stands hk'
        exact hstand.closing (hcl hdue k₁ hk₁)
      · exact hcl' y hy k (by rw [hsame y hy]; exact hk) (hconf.symm ▸ hdue) k' hk'

/-- **A sweep closes exactly the connections whose time is up.** -/
theorem sweep_polices {s t : Server} {l : Nat → List Taken} (hb : s.world.Base s.config) (h : (s.sweep env).state = some t)
    (hl : ∀ cid c, s.connections.get cid = some c → c.closing = false → c.activity = lastTaken c (l cid)) :
    Polices (s.Cause env l .sweep) False s t ∧ ∀ cid c, s.connections.get cid = some c →
      ((c.player = none ∧ s.config.authTimeoutMs ≤ env.now - c.created) ∨
        (c.player ≠ none ∧ s.config.idleTimeoutMs ≤ env.now - c.activity)) →
      ∀ c', t.connections.get cid = some c' → c'.closing = true := by
  obtain ⟨⟨u, hrun⟩, -⟩ := sweep_queue h
  have hqueue : s.Revises { s with delayed := [] } := .same rfl
  have hu : s.Revises u := hqueue.trans (Out.all_of_state (revises_runDelayed env s.delayed _) (by rw [hrun]; rfl))
  have hbu : u.world.Base s.config := by
    have hstart : PlayedBy env s .sweep s.world ({ s with delayed := [] } : Server).world :=
      .single .quiet ⟨⟨s.world, .idle _ _, s.links, [], .refl _, List.nil_subset _, rfl⟩, trivial⟩
    have hdone : (runDelayed env s.delayed { s with delayed := [] }).All (fun u =>
        PlayedBy env s .sweep ({ s with delayed := [] } : Server).world u.world) :=
      runDelayed_done hb.queued s.delayed [] { s with delayed := [] } rfl rfl (PlayedBy.base hstart hb)
    rw [hrun] at hdone
    exact PlayedBy.base (hstart.trans hdone) hb
  unfold sweep at h
  rw [hrun] at h
  dsimp only [Out.andThen] at h
  have hrooms := revises_sweepRooms env u
  have hroomsDone := sweepRooms_done env s u hbu.keyed
  cases hv : u.sweepRooms env with
  | halt x => rw [hv] at h; cases h
  | err v => exact absurd hv (keepEmpty_ne_err env _ _)
  | ok v =>
  rw [hv] at h hrooms hroomsDone
  have hv' : s.Revises v := hu.trans hrooms
  have hconf : v.config = s.config := (PlayedBy.base hroomsDone hbu).config
  dsimp only at h
  have hsweep := polices_sweepConnections env (s.Cause env l .sweep) v.connections.keys v false v.connections.nodup
    (fun cid _ c₁ hc₁ hopen hdue => by
      obtain ⟨c, hc, he⟩ := hv'.edits hc₁
      have hstand : Connection.Stands False False c c₁ := .of_edits he
      have hplayer : c₁.player = c.player := hstand.player.resolve_right (fun h => h.2)
      have hactivity : c₁.activity = c.activity := congrArg Meter.activity hstand.meter
      have hcreated : c₁.created = c.created := congrArg Meter.created hstand.meter
      have hopen₀ : c.closing = false := by
        cases hcl : c.closing with
        | false => rfl
        | true => exact absurd (hopen.symm.trans (hstand.closing hcl)) (by decide)
      rw [hconf] at hdue
      rcases hdue with (⟨hp, hlate⟩ | ⟨hp, a, ha, hlate⟩) | ⟨hp, hlate⟩
      · exact .late hc (hplayer.symm.trans hp) (hcreated ▸ hlate)
      · exact .unanswered hc (hplayer ▸ hp) (he.ping ha) hlate
      · exact .silent hc (hplayer ▸ hp) (by rw [← hl cid c hc hopen₀, ← hactivity]; exact hlate))
  cases hw : sweepConnections env v.connections.keys v false with
  | halt x => rw [hw] at h; cases h
  | err x => exact absurd hw (sweepConnections_ne_err env _ _ _)
  | ok x =>
  obtain ⟨w, heartbeat⟩ := x
  rw [hw] at h hsweep
  obtain ⟨hpol, hdue⟩ := hsweep
  dsimp only at h hpol hdue
  -- what follows only sends
  have hrest : ∀ x : Server, (∃ b : Bool, x = if b then w.rooms.values.foldl (fun s r => s.broadcast r (s.roomRtt r) none none) w
      else w) → w.Revises (x.expire env.now) := by
    rintro x ⟨b, rfl⟩
    refine Revises.trans ?_ (revises_expire _ env.now)
    split
    · exact Revises.foldl (fun s r => revises_broadcast s r none none) _ w
    · exact .refl w
  have hlast := hrest _ ⟨heartbeat, rfl⟩
  cases h
  refine ⟨(Polices.revises hv').trans (hpol.trans (.revises hlast)), fun cid c hc hup c' hc' => ?_⟩
  obtain ⟨c₂, hc₂, he₂⟩ := hlast.edits hc'
  have hstand₂ : Connection.Stands False False c₂ c' := .of_edits he₂
  refine hstand₂.closing ?_
  obtain ⟨c₁, hc₁, hstand₁⟩ := hpol.stands hc₂
  obtain ⟨c₀, hc₀, he⟩ := hv'.edits hc₁
  cases hc.symm.trans hc₀
  have hstand : Connection.Stands False False c c₁ := .of_edits he
  have hplayer : c₁.player = c.player := hstand.player.resolve_right (fun h => h.2)
  have hkey : cid ∈ v.connections.keys := Classical.byContradiction (fun h => by
    rw [IndexMap.get_eq_none.2 h] at hc₁
    cases hc₁)
  refine hdue cid hkey c₁ hc₁ ?_ c₂ hc₂
  rw [hconf]
  rcases hup with ⟨hp, hlate⟩ | ⟨hp, hlate⟩
  · exact .inl (.inl ⟨hplayer.trans hp, by rw [show c₁.created = c.created from congrArg Meter.created hstand.meter]; exact hlate⟩)
  · exact .inr ⟨hplayer ▸ hp, by rw [show c₁.activity = c.activity from congrArg Meter.activity hstand.meter]; exact hlate⟩

end Maintenance

/-! The frames taken. -/

/-- The frame is taken unless the connection's window is full. -/
def taken (env : Env) (s : Server) (cid : Nat) : List Taken :=
  match s.connections.get cid with
  | none => []
  | some c =>
    if (c.closing || !s.isCurrent cid c) || decide (s.config.maxMessagesPerSecond < (countFrame c env.now).messages) then []
    else [⟨env.now, (countFrame c env.now).rateAt⟩]

/-- The frames taken from a connection since it came, after a command. -/
def takenBy (env : Env) (s : Server) (l : Nat → List Taken) (cid : Nat) : Command → List Taken
  | .connected x => if x = cid then [] else l cid
  | .receive x _ => if x = cid then l cid ++ s.taken env cid else l cid
  | _ => l cid

end Server

open Server

/-- A run at nondecreasing times, with the frames it has taken from each connection. -/
inductive Policed (b : Server) : Nat → Server → (Nat → List Taken) → Prop
  | start (clock : Nat) : Policed b clock b (fun _ => [])
  | step {clock : Nat} {s t : Server} {l : Nat → List Taken} {env : Env} {c : Command} (h : Policed b clock s l)
      (hclock : clock ≤ env.now) (hs : s.step env c = some t) :
      Policed b env.now t (fun cid => s.takenBy env l cid c)

theorem Policed.run {b s : Server} {clock : Nat} {l : Nat → List Taken} (h : Policed b clock s l) :
    Run (fun _ _ _ => True) b s := by
  induction h with
  | start => exact .refl
  | step _ _ hs ih => exact ih.tail ⟨_, _, trivial, hs⟩

omit [Extern] in
/-- The meter of a connection is the frames taken from it. -/
structure Connection.Notes (limit now : Nat) (c : Connection) (l : List Taken) : Prop where
  metered : Metered 1000 limit Taken.time Taken.window l c.rateAt c.messages now
  exact : c.closing = false → c.messages = l.countP (fun x => decide (x.window = c.rateAt))
  activity : c.closing = false → c.activity = lastTaken c l

namespace Connection.Notes

variable {limit now : Nat} {c c' : Connection} {l : List Taken}

omit [Extern] in
theorem later (h : c.Notes limit now l) {now' : Nat} (hn : now ≤ now') : c.Notes limit now' l :=
  ⟨h.metered.later hn, h.exact, h.activity⟩

omit [Extern] in
/-- A connection that stands keeps its notes. -/
theorem stands {why free : Prop} (h : c.Notes limit now l) (hs : Connection.Stands why free c c') : c'.Notes limit now l := by
  have hcreated : c'.created = c.created := congrArg Meter.created hs.meter
  have hactivity : c'.activity = c.activity := congrArg Meter.activity hs.meter
  have hrate : c'.rateAt = c.rateAt := congrArg Meter.rateAt hs.meter
  have hmessages : c'.messages = c.messages := congrArg Meter.messages hs.meter
  have hopen : c'.closing = false → c.closing = false := fun h' => by
    cases hc : c.closing with
    | false => rfl
    | true => exact absurd (h'.symm.trans (hs.closing hc)) (by decide)
  refine ⟨by rw [hrate, hmessages]; exact h.metered, fun h' => ?_, fun h' => ?_⟩
  · rw [hrate, hmessages]
    exact h.exact (hopen h')
  · unfold lastTaken
    rw [hactivity, hcreated]
    exact h.activity (hopen h')

omit [Extern] in
/-- **A frame is over the limit exactly when the window under way is full.** -/
theorem full_iff (h : c.Notes limit now l) (hopen : c.closing = false) :
    limit < (countFrame c now).messages ↔ Full limit now l := by
  have hpast := h.metered.past
  have hexact := h.exact hopen
  show limit < (if decide (1000 ≤ now - c.rateAt) then 0 else c.messages) + 1 ↔ _
  by_cases hfresh : 1000 ≤ now - c.rateAt
  · rw [if_pos (decide_eq_true hfresh)]
    -- no entry is of a window that is still under way
    have hold : ∀ w, now < w + 1000 → l.countP (fun x => decide (x.window = w)) = 0 := fun w hw => by
      refine List.countP_eq_zero.2 (fun x hx => ?_)
      have hlatest := h.metered.latest x hx
      simp only [decide_eq_true_eq]
      omega
    refine ⟨fun hlt => ⟨now, Nat.le_refl now, by omega, by rw [hold now (by omega)]; omega⟩, fun ⟨w, _, hw, hcount⟩ => ?_⟩
    rw [hold w hw] at hcount
    omega
  · rw [if_neg (fun hd => hfresh (of_decide_eq_true hd))]
    refine ⟨fun hlt => ⟨c.rateAt, hpast, by omega, ?_⟩, fun ⟨w, hle, hw, hcount⟩ => ?_⟩
    · have hbound := h.metered.bounded c.rateAt
      omega
    · by_cases hsame : w = c.rateAt
      · rw [hsame] at hcount
        omega
      · have hnone : l.countP (fun x => decide (x.window = w)) = 0 := by
          refine List.countP_eq_zero.2 (fun x hx => ?_)
          have hlatest := h.metered.latest x hx
          simp only [decide_eq_true_eq]
          omega
        omega

omit [Extern] in
/-- A frame is counted. -/
theorem count (h : c.Notes limit now l) (hopen : c.closing = false) (hle : (countFrame c now).messages ≤ limit) :
    (countFrame c now).Notes limit now (l ++ [⟨now, (countFrame c now).rateAt⟩]) := by
  have hpast := h.metered.past
  have hexact := h.exact hopen
  have hlast : (countFrame c now).activity = lastTaken (countFrame c now) (l ++ [⟨now, (countFrame c now).rateAt⟩]) := by
    unfold lastTaken
    rw [List.getLast?_concat]
    rfl
  have hcount : ∀ w : Nat, (l ++ [(⟨now, w⟩ : Taken)]).countP (fun x => decide (x.window = w)) =
      l.countP (fun x => decide (x.window = w)) + 1 := fun w => by
    rw [List.countP_append, List.countP_singleton, if_pos (decide_eq_true rfl)]
  unfold countFrame at hle ⊢
  dsimp only at hle ⊢
  by_cases hfresh : 1000 ≤ now - c.rateAt
  · rw [if_pos (decide_eq_true hfresh)] at hle
    have hre := h.metered.reopen (by decide) (show c.rateAt + 1000 ≤ now by omega)
    have hone := hre.count_one (by omega) (by omega) (show Taken.time ⟨now, now⟩ = now from rfl)
      (show Taken.window ⟨now, now⟩ = now from rfl)
    have hzero : l.countP (fun x => decide (x.window = now)) = 0 := Nat.le_zero.1 hre.counted
    refine ⟨?_, fun _ => ?_, fun _ => ?_⟩
    · simpa [hfresh] using hone
    · simp only [hfresh, decide_true, if_true]
      rw [hcount now, hzero]
    · exact hlast
  · rw [if_neg (fun hd => hfresh (of_decide_eq_true hd))] at hle
    have hone := h.metered.count_one (by omega) (by omega) (show Taken.time ⟨now, c.rateAt⟩ = now from rfl)
      (show Taken.window ⟨now, c.rateAt⟩ = c.rateAt from rfl)
    refine ⟨?_, fun _ => ?_, fun _ => ?_⟩
    · simpa [hfresh] using hone
    · simp only [hfresh, decide_false, Bool.false_eq_true, if_false]
      rw [hcount c.rateAt, hexact]
    · exact hlast

omit [Extern] in
/-- One frame too many is charged, and the connection is closing. -/
theorem overdrawn (h : c.Notes limit now l) {why free : Prop} (hs : Connection.Stands why free (countFrame c now) c')
    (hc : c'.closing = true) : c'.Notes limit now l := by
  have hrate : c'.rateAt = (countFrame c now).rateAt := congrArg Meter.rateAt hs.meter
  have hmessages : c'.messages = (countFrame c now).messages := congrArg Meter.messages hs.meter
  have hpast := h.metered.past
  refine ⟨?_, fun h' => absurd (hc.symm.trans h') (by decide), fun h' => absurd (hc.symm.trans h') (by decide)⟩
  rw [hrate, hmessages]
  unfold countFrame
  dsimp only
  by_cases hfresh : 1000 ≤ now - c.rateAt
  · have hre := (h.metered.reopen (by decide) (show c.rateAt + 1000 ≤ now by omega)).charge
    simpa [hfresh] using hre
  · have hcharge := h.metered.charge
    simpa [hfresh] using hcharge

end Connection.Notes

namespace Server

/-- What a step does to connections: why one may close, and which surely do. -/
structure Step (env : Env) (s : Server) (l : Nat → List Taken) (cmd : Command) (t : Server) : Prop where
  cause : ∀ cid c c', s.connections.get cid = some c → t.connections.get cid = some c' → c.closing = false →
    c'.closing = true → c'.abort = true ∨ s.Cause env l cmd cid
  full : ∀ cid c c' frame, s.connections.get cid = some c → t.connections.get cid = some c' → cmd = .receive cid frame →
    s.isCurrent cid c = true → Full s.config.maxMessagesPerSecond env.now (l cid) → c'.closing = true
  late : ∀ cid c c', s.connections.get cid = some c → t.connections.get cid = some c' → cmd = .sweep → c.closing = false →
    (c.player = none ∧ s.config.authTimeoutMs ≤ env.now - c.created) ∨
      (c.player ≠ none ∧ s.config.idleTimeoutMs ≤ env.now - lastTaken c (l cid)) → c'.closing = true

/-- The notes on every connection. -/
def Noted (clock : Nat) (s : Server) (l : Nat → List Taken) : Prop :=
  ∀ cid c, s.connections.get cid = some c → c.Notes s.config.maxMessagesPerSecond clock (l cid)

omit [Extern] in
theorem noted_other {env : Env} {s : Server} {x cid : Nat} (h : cid ≠ x) :
    (s.noted env x).connections.get cid = s.connections.get cid := by
  unfold noted
  split
  · rfl
  · split
    · rfl
    · exact IndexMap.get_insert_ne _ _ h

/-- A frame too many closes the connection. -/
theorem receive_overdrawn {env : Env} {s t : Server} {x : Nat} {frame : Frame} {c c' : Connection}
    (hc : s.connections.get x = some c) (hopen : ¬ (c.closing || !s.isCurrent x c) = true)
    (hover : s.config.maxMessagesPerSecond < (countFrame c env.now).messages) (hs : (s.receive env x frame).state = some t)
    (hc' : t.connections.get x = some c') : c'.closing = true := by
  unfold receive at hs
  rw [hc] at hs
  dsimp only at hs
  rw [if_neg hopen, if_pos (show (s.setConnection x (countFrame c env.now)).config.maxMessagesPerSecond < _ from hover)] at hs
  cases hs
  exact closing_close _ x 1008 _ hc'

/-- **Each step keeps the notes, and closes for cause.** -/
theorem Noted.step {env : Env} {s t : Server} {l : Nat → List Taken} {cmd : Command} (hn : s.Noted env.now l)
    (hb : s.world.Base s.config) (hconf : t.config = s.config) (hs : s.step env cmd = some t) :
    t.Noted env.now (fun cid => s.takenBy env l cid cmd) ∧ s.Step env l cmd t := by
  cases cmd with
  | connected x =>
    unfold Server.step at hs
    dsimp only at hs
    split at hs
    · cases hs
    rename_i hfree
    obtain rfl := Option.some.inj hs
    have hother : ∀ cid c', (s.connected env x).connections.get cid = some c' → cid ≠ x → s.connections.get cid = some c' :=
      fun cid c' hc' hx => by rwa [connected, Server.setConnection, IndexMap.get_insert_ne _ _ hx] at hc'
    have hnew : ∀ cid c, s.connections.get cid = some c → cid ≠ x := fun cid c hc hx =>
      hfree (IndexMap.contains_iff.2 ⟨c, hx ▸ hc⟩)
    refine ⟨fun cid c' hc' => ?_, fun cid c c' hc hc' hopen hcl => ?_, fun cid c c' frame _ _ h => (by cases h),
      fun cid c c' _ _ h => (by cases h)⟩
    · show c'.Notes _ _ (if x = cid then [] else l cid)
      by_cases hx : cid = x
      · subst hx
        rw [if_pos rfl]
        rw [connected, Server.setConnection, IndexMap.get_insert_self] at hc'
        cases hc'
        exact ⟨Metered.nil (Nat.le_refl _), fun _ => rfl, fun _ => rfl⟩
      · rw [if_neg (fun h => hx h.symm)]
        exact hn cid c' (hother cid c' hc' hx)
    · have hsame := hother cid c' hc' (hnew cid c hc)
      cases hc.symm.trans hsame
      exact absurd (hopen.symm.trans hcl) (by decide)
  | disconnect x =>
    have ht := Out.all_of_state (revises_disconnect env s x) hs
    have hpol : Polices (s.Cause env l (.disconnect x)) False s t := .revises ht
    refine ⟨fun cid c' hc' => ?_, fun cid c c' hc hc' hopen hcl => ?_, fun cid c c' frame _ _ h => (by cases h),
      fun cid c c' _ _ h => (by cases h)⟩
    · obtain ⟨c, hc, hstand⟩ := hpol.stands hc'
      rw [hconf]
      exact (hn cid c hc).stands hstand
    · exact hpol.cause hc hc' hopen hcl
  | sweep =>
    obtain ⟨hpol, hup⟩ := sweep_polices hb hs (fun cid c hc hopen => (hn cid c hc).activity hopen)
    refine ⟨fun cid c' hc' => ?_, fun cid c c' hc hc' hopen hcl => ?_, fun cid c c' frame _ _ h => (by cases h),
      fun cid c c' hc hc' _ hopen hlate => ?_⟩
    · obtain ⟨c, hc, hstand⟩ := hpol.stands hc'
      rw [hconf]
      exact (hn cid c hc).stands hstand
    · exact hpol.cause hc hc' hopen hcl
    · refine hup cid c hc ?_ c' hc'
      rwa [(hn cid c hc).activity hopen]
  | receive x frame =>
    have hpol : Polices (s.Cause env l (.receive x frame)) True (s.noted env x) t :=
      Out.all_of_state (receive_polices env s x frame hb.keyed
        (fun c hc hopen hover => ((hn x c hc).full_iff hopen).1 hover)) hs
    have hother : ∀ {cid c'}, cid ≠ x → t.connections.get cid = some c' → ∃ c, s.connections.get cid = some c ∧
        Connection.Stands (s.Cause env l (.receive x frame) cid) True c c' := fun hx hc' => by
      obtain ⟨c, hc, hstand⟩ := hpol.stands hc'
      exact ⟨c, by rwa [noted_other hx] at hc, hstand⟩
    -- the connection itself: the frame is not looked at, too many, or counted
    have hself : ∀ {c'}, t.connections.get x = some c' → ∃ c, s.connections.get x = some c ∧
        ((c.closing || !s.isCurrent x c) = true ∧ s.taken env x = [] ∧
            Connection.Stands (s.Cause env l (.receive x frame) x) True c c' ∨
          c.closing = false ∧ Connection.Stands (s.Cause env l (.receive x frame) x) True (countFrame c env.now) c' ∧
            (s.config.maxMessagesPerSecond < (countFrame c env.now).messages ∧ s.taken env x = [] ∧ c'.closing = true ∨
              (countFrame c env.now).messages ≤ s.config.maxMessagesPerSecond ∧
                s.taken env x = [⟨env.now, (countFrame c env.now).rateAt⟩])) := fun {c'} hc' => by
      obtain ⟨c₀, hc₀, hstand⟩ := hpol.stands hc'
      unfold noted at hc₀
      cases hc : s.connections.get x with
      | none => rw [hc] at hc₀; dsimp only at hc₀; rw [hc] at hc₀; cases hc₀
      | some c =>
        rw [hc] at hc₀
        dsimp only at hc₀
        have htaken : s.taken env x = if (c.closing || !s.isCurrent x c) ||
            decide (s.config.maxMessagesPerSecond < (countFrame c env.now).messages) then []
            else [⟨env.now, (countFrame c env.now).rateAt⟩] := by
          unfold taken
          rw [hc]
        refine ⟨c, rfl, ?_⟩
        by_cases hshut : (c.closing || !s.isCurrent x c) = true
        · rw [if_pos hshut] at hc₀
          cases hc.symm.trans hc₀
          exact .inl ⟨hshut, by rw [htaken, hshut]; rfl, hstand⟩
        · rw [if_neg hshut, Server.setConnection, IndexMap.get_insert_self] at hc₀
          cases hc₀
          have hlook := eq_false_of_ne_true hshut
          refine .inr ⟨(Bool.or_eq_false_iff.1 hlook).1, hstand, ?_⟩
          by_cases hover : s.config.maxMessagesPerSecond < (countFrame c env.now).messages
          · exact .inl ⟨hover, by rw [htaken, hlook, decide_eq_true hover]; rfl, receive_overdrawn hc hshut hover hs hc'⟩
          · exact .inr ⟨Nat.le_of_not_lt hover, by rw [htaken, hlook, decide_eq_false hover]; rfl⟩
    refine ⟨fun cid c' hc' => ?_, fun cid c c' hc hc' hopen hcl => ?_, fun cid c c' frame' hc hc' hcmd hcur hfull => ?_,
      fun cid c c' _ _ h => (by cases h)⟩
    · rw [hconf]
      show c'.Notes _ _ (if x = cid then l cid ++ s.taken env cid else l cid)
      by_cases hx : cid = x
      · subst hx
        rw [if_pos rfl]
        obtain ⟨c, hc, ⟨-, htaken, hstand⟩ | ⟨hopen, hstand, ⟨-, htaken, hcl⟩ | ⟨hle, htaken⟩⟩⟩ := hself hc'
        · rw [htaken, List.append_nil]
          exact (hn cid c hc).stands hstand
        · rw [htaken, List.append_nil]
          exact (hn cid c hc).overdrawn hstand hcl
        · rw [htaken]
          exact ((hn cid c hc).count hopen hle).stands hstand
      · rw [if_neg (fun h => hx h.symm)]
        obtain ⟨c, hc, hstand⟩ := hother hx hc'
        exact (hn cid c hc).stands hstand
    · have hno : c.closing ≠ true := by rw [hopen]; decide
      by_cases hx : cid = x
      · subst hx
        obtain ⟨c₀, hc₀, ⟨-, -, hstand⟩ | ⟨-, hstand, -⟩⟩ := hself hc'
        · cases hc.symm.trans hc₀
          exact (hstand.cause hcl).resolve_left hno
        · cases hc.symm.trans hc₀
          exact (hstand.cause hcl).resolve_left hno
      · obtain ⟨c₀, hc₀, hstand⟩ := hother hx hc'
        cases hc.symm.trans hc₀
        exact (hstand.cause hcl).resolve_left hno
    · cases hcmd
      obtain ⟨c₀, hc₀, ⟨hshut, -, hstand⟩ | ⟨hopen, -, ⟨-, -, hcl⟩ | ⟨hle, -⟩⟩⟩ := hself hc'
      · cases hc.symm.trans hc₀
        rw [hcur, Bool.not_true, Bool.or_false] at hshut
        exact hstand.closing hshut
      · exact hcl
      · cases hc.symm.trans hc₀
        exact absurd (((hn _ c hc).full_iff hopen).2 hfull) (Nat.not_lt.2 hle)

/-- **All along a run the notes are the frames taken.** -/
theorem Noted.run {config : Config} {store : Store} {push : Bool} {clock : Nat} {s : Server} {l : Nat → List Taken}
    (h : Policed (boot config store push) clock s l) : s.Noted clock l := by
  induction h with
  | start => exact fun cid c hc => absurd hc (by simp [boot])
  | @step clock s t l env c h hclock hs ih =>
    have hb : s.world.Base config := Run.base h.run (boot_base config store push)
    have hb' : t.world.Base config := Run.base (h.step hclock hs).run (boot_base config store push)
    have hconf : s.config = config := hb.config
    exact (Noted.step (fun cid c hc => (ih cid c hc).later hclock) (hconf.symm ▸ hb) (hb'.config.trans hconf.symm) hs).1

/-- **Connections are closed for cause.**  In every run at times that do not go back, the frames taken from a connection lie
in windows of a second that do not overlap, at most the limit in each and at most twice the limit in any interval of a
second; a frame on an open connection is taken unless the window under way is full.  A step closes a connection only by an
overflow of its queue or for one of the causes; a frame too many does close it, and so does a sweep once the time to
authenticate, or to send the next frame, is up. -/
theorem connections_are_policed {config : Config} {store : Store} {push : Bool} {clock : Nat} {s : Server}
    {l : Nat → List Taken} (h : Policed (boot config store push) clock s l) :
    (∀ cid c, s.connections.get cid = some c →
      Windowed 1000 config.maxMessagesPerSecond Taken.time Taken.window (l cid) ∧
      ∀ a, (l cid).countP (fun x => decide (a ≤ x.time ∧ x.time ≤ a + 1000)) ≤ 2 * config.maxMessagesPerSecond) ∧
    ∀ env cmd t, clock ≤ env.now → s.step env cmd = some t → s.Step env l cmd t ∧
      ∀ cid c, s.connections.get cid = some c → c.closing = false → s.isCurrent cid c = true →
        (s.taken env cid = [] ↔ Full config.maxMessagesPerSecond env.now (l cid)) := by
  have hn := Noted.run h
  have hb : s.world.Base config := Run.base h.run (boot_base config store push)
  have hconf : s.config = config := hb.config
  refine ⟨fun cid c hc => ?_, fun env cmd t hclock hs => ⟨?_, fun cid c hc hopen hcur => ?_⟩⟩
  · have hw := (hn cid c hc).metered.toWindowed
    rw [hconf] at hw
    exact ⟨hw, hw.interval⟩
  · have hb' : t.world.Base config := Run.base (h.step hclock hs).run (boot_base config store push)
    exact (Noted.step (fun cid c hc => (hn cid c hc).later hclock) (hconf.symm ▸ hb) (hb'.config.trans hconf.symm) hs).2
  · have hfull := ((hn cid c hc).later hclock).full_iff hopen
    unfold taken
    rw [hc]
    simp only [hopen, hcur, Bool.not_true, Bool.or_false, Bool.false_or, decide_eq_true_eq]
    rw [← hconf, ← hfull]
    split
    · exact ⟨fun _ => ‹_›, fun _ => rfl⟩
    · exact ⟨fun h' => absurd h' (List.cons_ne_nil _ _), fun h' => absurd h' ‹_›⟩

/-- Commands executed one after the other, with the frames taken. -/
def police : List (Env × Command) → Server → (Nat → List Taken) → Option (Server × (Nat → List Taken))
  | [], s, l => some (s, l)
  | (env, c) :: cs, s, l => (s.step env c).bind (fun t => police cs t (fun cid => s.takenBy env l cid c))

theorem policed_police {b : Server} : ∀ {cs : List (Env × Command)} {clock : Nat} {s t : Server} {l l' : Nat → List Taken},
    Policed b clock s l → (clock :: cs.map (·.1.now)).Pairwise (· ≤ ·) → police cs s l = some (t, l') →
    ∃ last, last ∈ clock :: cs.map (·.1.now) ∧ Policed b last t l'
  | [], clock, s, t, l, l', h, _, he => by
    cases he
    exact ⟨clock, List.mem_cons_self, h⟩
  | (env, c) :: cs, clock, s, t, l, l', h, hp, he => by
    obtain ⟨u, hu, he⟩ := Option.bind_eq_some_iff.1 he
    obtain ⟨hfirst, hrest⟩ := List.pairwise_cons.1 hp
    obtain ⟨last, hlast, hpoliced⟩ := policed_police (h.step (hfirst env.now List.mem_cons_self) hu) hrest he
    exact ⟨last, List.mem_cons_of_mem _ hlast, hpoliced⟩

end Server

namespace Trace

/-- Two frames in one second. -/
def busy : List (Env × Command) := [(.plain 1, .connected 1), (.plain 1, .receive 1 (.pong [])),
  (.plain 500, .receive 1 (.pong []))]

end Trace

namespace Server

omit [Extern] in
/-- Where two frames are the limit, the third at 1000 closes the connection. -/
theorem connections_are_policed_busy :
    letI := Extern.reading []
    ∃ clock s l t, Policed (boot { Config.default with maxMessagesPerSecond := 2 } .empty false) clock s l ∧
      s.step (Env.plain 1000) (.receive 1 (.pong [])) = some t ∧ ∃ k, t.connections.get 1 = some k ∧ k.closing = true := by
  let _ := Extern.reading []
  have h : (police Trace.busy (boot { Config.default with maxMessagesPerSecond := 2 } .empty false) (fun _ => [])).any
      (fun x => (x.1.connections.get 1).any (fun k => x.1.isCurrent 1 k && decide (x.1.config.maxMessagesPerSecond = 2)) &&
        decide ((x.2 1).countP (fun y => decide (y.window = 1)) = 2) &&
        (x.1.step (Env.plain 1000) (.receive 1 (.pong []))).any (fun t => (t.connections.get 1).isSome)) = true := by
    decide +kernel
  obtain ⟨⟨s, l⟩, hs, h⟩ := (Option.any_eq_true _ _).1 h
  obtain ⟨h, ht⟩ := Bool.and_eq_true_iff.1 h
  obtain ⟨hk, hcount⟩ := Bool.and_eq_true_iff.1 h
  obtain ⟨k, hk, hcur⟩ := (Option.any_eq_true _ _).1 hk
  obtain ⟨hcur, hmax⟩ := Bool.and_eq_true_iff.1 hcur
  obtain ⟨t, ht, hk'⟩ := (Option.any_eq_true _ _).1 ht
  obtain ⟨k', hk'⟩ := Option.isSome_iff_exists.1 hk'
  obtain ⟨last, hlast, hp⟩ := policed_police (.start 0) (by decide) hs
  have hlast : last ≤ 1000 := by
    have : ∀ x ∈ 0 :: Trace.busy.map (·.1.now), x ≤ 1000 := by decide
    exact this last hlast
  have hstep := ((connections_are_policed hp).2 (Env.plain 1000) _ t hlast ht).1
  refine ⟨last, s, l, t, hp, ht, k', hk', hstep.full 1 k k' _ hk hk' rfl hcur ⟨1, by decide, by decide, ?_⟩⟩
  rw [of_decide_eq_true hmax]
  exact of_decide_eq_true hcount

end Server
end Relay
