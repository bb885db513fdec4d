import GameRelay.Speech
import GameRelay.Replays
/-!
# Binding — who a connection speaks for

A connection is bound to an account once, by an authentication that proves the account (`Proves`), and for ever.  While it
is not its account's current connection nothing that arrives on it has an effect; and what the relay sends on the account's
behalf names the account.
-/
namespace Relay

open Function (update)

variable [Extern]

namespace Server

/-- The authentication creates the account, or gives the password of the one it names. -/
def Proves (env : Env) (t : Server) (d : Value) (id : String) : Prop :=
  (((d.get "playerId").isNone && (d.get "password").isNone) = true ∧ t.inUse id = false) ∨
    ∃ p, p.id = id ∧ (t.Returns d p ∨ t.Recalls env d p)

/-- The command authenticates the connection as the account. -/
def Binds (env : Env) (s : Server) (c : Command) (cid : Nat) (id : String) : Prop :=
  ∃ t d, s.Authenticates env c t cid d ∧ (t.expire env.now).Proves env d id

end Server

/-- No connection is new, bindings stay, and new ones satisfy `Q`. -/
structure Bound (Q : Nat → String → Prop) (l l' : Nat → Option Link) : Prop where
  old : ∀ {cid b}, l' cid = some b → ∃ a, l cid = some a
  stays : ∀ {cid a b id}, l cid = some a → l' cid = some b → a.player = some id → b.player = some id
  new : ∀ {cid b id}, l' cid = some b → b.player = some id → (∃ a, l cid = some a ∧ a.player = some id) ∨ Q cid id

omit [Extern] in
theorem Kept.bound {Q : Nat → String → Prop} {l l' : Nat → Option Link} (h : Kept l l') : Bound Q l l' := by
  refine ⟨fun hb => ?_, fun ha hb hp => ?_, fun hb hp => ?_⟩
  · obtain ⟨a, ha, -⟩ := h.get' hb
    exact ⟨a, ha⟩
  · obtain ⟨b', hb', hk⟩ := h.get ha
    rw [hb] at hb'
    cases hb'
    exact hk.player.trans hp
  · obtain ⟨a, ha, hk⟩ := h.get' hb
    exact .inl ⟨a, ha, hk.player.symm.trans hp⟩

omit [Extern] in
theorem Bound.trans {Q : Nat → String → Prop} {l m n : Nat → Option Link} (h : Bound Q l m) (h' : Bound Q m n) :
    Bound Q l n := by
  refine ⟨fun hb => ?_, fun ha hb hp => ?_, fun hb hp => ?_⟩
  · obtain ⟨x, hx⟩ := h'.old hb
    exact h.old hx
  · obtain ⟨x, hx⟩ := h'.old hb
    exact h'.stays hx hb (h.stays ha hx hp)
  · rcases h'.new hb hp with ⟨x, hx, hpx⟩ | hq
    · exact h.new hx hpx
    · exact .inr hq

omit [Extern] in
theorem Bound.mono {Q Q' : Nat → String → Prop} {l l' : Nat → Option Link} (h : Bound Q l l')
    (hQ : ∀ cid id, Q cid id → Q' cid id) : Bound Q' l l' :=
  ⟨h.old, h.stays, fun hb hp => (h.new hb hp).imp_right (hQ _ _)⟩

omit [Extern] in
/-- One link changes, in agreement with `Q`. -/
theorem Bound.update {Q : Nat → String → Prop} {l : Nat → Option Link} {cid : Nat} {o : Option Link}
    (ho : ∀ b, o = some b → ∃ a, l cid = some a)
    (hs : ∀ a b id, l cid = some a → o = some b → a.player = some id → b.player = some id)
    (hn : ∀ b id, o = some b → b.player = some id → (∃ a, l cid = some a ∧ a.player = some id) ∨ Q cid id) :
    Bound Q l (update l cid o) := by
  refine ⟨fun {x b} hb => ?_, fun {x a b id} ha hb hp => ?_, fun {x b id} hb hp => ?_⟩
  · by_cases hx : x = cid
    · subst hx
      rw [Function.update_self] at hb
      exact ho b hb
    · rw [Function.update_of_ne hx] at hb
      exact ⟨b, hb⟩
  · by_cases hx : x = cid
    · subst hx
      rw [Function.update_self] at hb
      exact hs a b id ha hb hp
    · rw [Function.update_of_ne hx, ha] at hb
      cases hb
      exact hp
  · by_cases hx : x = cid
    · subst hx
      rw [Function.update_self] at hb
      exact hn b id hb hp
    · rw [Function.update_of_ne hx] at hb
      exact .inl ⟨b, hb, hp⟩

omit [Extern] in
theorem closeLink_player {links : Nat → Option Link} {old : Option Nat} {cid : Nat} {b : Link}
    (h : closeLink links old cid = some b) : ∃ a, links cid = some a ∧ a.player = b.player := by
  unfold closeLink at h
  split at h
  · obtain ⟨a, ha, rfl⟩ := Option.map_eq_some_iff.1 h
    exact ⟨a, ha, rfl⟩
  · exact ⟨b, h, rfl⟩

/-- **What an act does to the bindings**: only a login binds, and only a connection that was not bound. -/
theorem Effect.binding {a : Act} {w w' : World} (h : Effect a w w') (hn : ∀ cid, a ≠ .connected cid) :
    Bound (fun cid id => a = .bound cid id ∨ a = .recalled cid id) w.links w'.links := by
  have left : ∀ {p : String} {d : Bool} {w₀ : World} {Q : Nat → String → Prop}, w₀.Left p d w' →
      w'.links = w₀.links := fun h => h.frame.2.2
  have same : ∀ {w₀ : World}, w₀.links = w.links →
      Bound (fun cid id => a = .bound cid id ∨ a = .recalled cid id) w.links w₀.links := fun h => by
    rw [h]; exact (Kept.refl _).bound
  cases h with
  | connected h => exact absurd rfl (hn _)
  | unlinked hl hq => exact .update (fun _ hb => nomatch hb) (fun _ _ _ _ hb _ => nomatch hb) (fun _ _ hb _ => nomatch hb)
  | gone hl hp hq hc h =>
    have hlinks := h.frame.2.2
    rw [hlinks]
    exact .update (fun _ hb => nomatch hb) (fun _ _ _ _ hb _ => nomatch hb) (fun _ _ hb _ => nomatch hb)
  | bound hl hp hq =>
    rename_i cid id q l
    refine ⟨fun {x b} hb => ?_, fun {x a b i} ha hb hi => ?_, fun {x b i} hb hi => ?_⟩
    · by_cases hx : x = cid
      · exact ⟨l, by rw [hx]; exact hl⟩
      · replace hb : closeLink w.links q.connection x = some b := hb ▸ (Function.update_of_ne hx ..).symm
        obtain ⟨a', ha', -⟩ := closeLink_player hb
        exact ⟨a', ha'⟩
    · by_cases hx : x = cid
      · subst hx
        rw [hl] at ha
        cases ha
        rw [hp] at hi
        cases hi
      · replace hb : closeLink w.links q.connection x = some b := hb ▸ (Function.update_of_ne hx ..).symm
        obtain ⟨a', ha', hpl⟩ := closeLink_player hb
        rw [ha] at ha'
        cases ha'
        exact hpl.symm.trans hi
    · by_cases hx : x = cid
      · subst hx
        have hb' := (Function.update_self x (some { l with player := some id }) (closeLink w.links q.connection)).symm.trans hb
        cases hb'
        cases hi
        exact .inr (.inl rfl)
      · replace hb : closeLink w.links q.connection x = some b := hb ▸ (Function.update_of_ne hx ..).symm
        obtain ⟨a', ha', hpl⟩ := closeLink_player hb
        exact .inl ⟨a', ha', hpl.trans hi⟩
  | recalled hl hp =>
    refine .update (fun _ _ => ⟨_, hl⟩) (fun a b i ha _ hi => ?_) (fun b i hb hi => ?_)
    · rw [hl] at ha; cases ha; rw [hp] at hi; cases hi
    · cases hb; cases hi; exact .inr (.inr rfl)
  | rekeyed hl hu =>
    refine .update (fun _ _ => ⟨_, hl⟩) (fun a b i ha hb hi => ?_) (fun b i hb hi => ?_)
    · rw [hl] at ha; cases ha; cases hb; exact hi
    · cases hb; exact .inl ⟨_, hl, hi⟩
  | departed h => exact same h.frame.2.2
  | left h => exact same h.frame.2.2
  | slept hr hp ha h => cases h; all_goals exact same rfl
  | _ => exact same rfl

/-- Every account's current connection is there, and bound to the account. -/
def World.Linked (w : World) : Prop :=
  ∀ p q cid, w.seats p = some q → q.connection = some cid → ∃ l, w.links cid = some l ∧ l.player = some p

namespace World.Linked

variable {w w' : World}

omit [Extern] in
/-- Seats keep their connections or lose them. -/
theorem congr (hw : w.Linked) (hs : ∀ {p q cid}, w'.seats p = some q → q.connection = some cid →
    ∃ q₀, w.seats p = some q₀ ∧ q₀.connection = some cid) (hl : w'.links = w.links) : w'.Linked := fun _ _ _ hq hc => by
  obtain ⟨q₀, hq₀, hc₀⟩ := hs hq hc
  rw [hl]
  exact hw _ _ _ hq₀ hc₀

omit [Extern] in
theorem same (hw : w.Linked) (hs : w'.seats = w.seats) (hl : w'.links = w.links) : w'.Linked :=
  hw.congr (fun hq hc => ⟨_, hs ▸ hq, hc⟩) hl

omit [Extern] in
theorem left {p : String} {d : Bool} (hw : w.Linked) (h : w.Left p d w') : w'.Linked := by
  have released : ∀ {ids : List String} {x : String} {q : Seat} {cid : Nat}, releaseAll w.seats ids x = some q →
      q.connection = some cid → ∃ q₀, w.seats x = some q₀ ∧ q₀.connection = some cid := fun hx hc => by
    rcases releaseAll_some hx with ⟨-, hx⟩ | ⟨-, q₀, hq₀, rfl⟩
    · exact ⟨_, hx, hc⟩
    · exact ⟨q₀, hq₀, hc⟩
  cases h with
  | slept hq hid hr he hp hs => cases hs; exact hw.congr released rfl
  | _ => exact hw.congr released rfl

omit [Extern] in
/-- One account changes its seat, keeping its connection. -/
theorem seat (hw : w.Linked) {p : String} {q d : Seat} (hq : w.seats p = some q) (hc : d.connection = q.connection)
    (hs : w'.seats = Function.update w.seats p (some d)) (hl : w'.links = w.links) : w'.Linked := by
  refine hw.congr (fun {x b cid} hx hb => ?_) hl
  rw [hs] at hx
  rcases update_some hx with ⟨rfl, he⟩ | ⟨-, hx⟩
  · cases he
    exact ⟨q, hq, hc.symm.trans hb⟩
  · exact ⟨b, hx, hb⟩

omit [Extern] in
/-- A login on a connection that was not bound. -/
theorem bind (hw : w.Linked) {cid : Nat} {id : String} {l : Link} {q : Seat} {o : Option Nat} (hl : w.links cid = some l)
    (hp : l.player = none) (hq : q.connection = some cid) (hs : w'.seats = Function.update w.seats id (some q))
    (hl' : w'.links = Function.update (closeLink w.links o) cid (some { l with player := some id })) : w'.Linked := by
  intro x b c hx hb
  rw [hs] at hx
  rw [hl']
  rcases update_some hx with ⟨rfl, he⟩ | ⟨-, hx⟩
  · cases he
    rw [hq] at hb
    cases hb
    exact ⟨_, Function.update_self .., rfl⟩
  · obtain ⟨a, ha, hap⟩ := hw _ _ _ hx hb
    have hne : c ≠ cid := by
      rintro rfl
      rw [hl] at ha
      cases ha
      rw [hp] at hap
      cases hap
    rw [Function.update_of_ne hne]
    unfold closeLink
    rw [ha]
    split
    · exact ⟨_, rfl, hap⟩
    · exact ⟨a, rfl, hap⟩

omit [Extern] in
/-- A connection ends that is no account's current one. -/
theorem unlink (hw : w.Linked) {cid : Nat} {l : Link} (hl : w.links cid = some l)
    (hq : ∀ id q, l.player = some id → w.seats id = some q → q.connection ≠ some cid) :
    World.Linked { w with links := Function.update w.links cid none } := by
  intro x b c hx hb
  obtain ⟨a, ha, hap⟩ := hw _ _ _ hx hb
  have hne : c ≠ cid := by
    rintro rfl
    rw [hl] at ha
    cases ha
    exact hq x b hap hx hb
  exact ⟨a, (Function.update_of_ne hne ..).trans ha, hap⟩

end World.Linked

/-- **Every act keeps the current connections bound.** -/
theorem Effect.linked {a : Act} {w w' : World} (h : Effect a w w') (hw : w.Linked) : w'.Linked := by
  cases h with
  | connected h =>
    rename_i cid
    intro x b c hx hb
    obtain ⟨a, ha, hap⟩ := hw _ _ _ hx hb
    refine ⟨a, (Function.update_of_ne ?_ ..).trans ha, hap⟩
    rintro rfl
    rw [h] at ha
    cases ha
  | unlinked hl hq => exact hw.unlink hl hq
  | gone hl hp hq hc h =>
    rename_i cid l p q
    refine World.Linked.left ?_ h
    refine World.Linked.unlink (w := { w with seats := Function.update w.seats p (some { q with connection := none }) })
      (fun x b c hx hb => ?_) hl (fun id b hid hb => ?_)
    · rcases update_some hx with ⟨-, he⟩ | ⟨-, hx⟩
      · cases he; cases hb
      · exact hw _ _ _ hx hb
    · rw [hp] at hid
      cases hid
      cases (Function.update_self ..).symm.trans hb
      exact (Option.some_ne_none cid).symm
  | expired hq hc hf =>
    refine hw.congr (fun {x b c} hx hb => ?_) rfl
    rcases update_some hx with ⟨-, he⟩ | ⟨-, hx⟩
    · cases he
    · exact ⟨b, hx, hb⟩
  | bound hl hp hq => exact hw.bind hl hp rfl rfl rfl
  | recalled hl hp =>
    rename_i cid id pw l
    exact hw.bind (q := ⟨id, some cid, none, pw⟩) (o := none) hl hp rfl rfl
      (by unfold closeLink; simp only [reduceCtorEq, if_false])
  | rekeyed hl hu =>
    rename_i cid p v l u
    intro x b c hx hb
    obtain ⟨a, ha, hap⟩ := hw _ _ _ hx hb
    by_cases hne : c = cid
    · subst hne
      rw [hl] at ha
      cases ha
      exact ⟨_, Function.update_self .., hap⟩
    · exact ⟨a, (Function.update_of_ne hne ..).trans ha, hap⟩
  | departed h => exact hw.left h
  | left h => exact hw.left h
  | entered hq hc hr hf he hm hid hpw =>
    rename_i p id v pw q r loaded
    exact hw.seat (d := { q with room := some id }) hq rfl rfl rfl
  | created hq hc hr hid hfile hhist hlow hroom hmax hfit hfree =>
    rename_i p id name v pw game q r max now binary
    exact hw.seat (d := { q with room := some id }) hq rfl rfl rfl
  | slept hr hp ha h => cases h; exact hw.same rfl rfl
  | _ => exact hw.same rfl rfl

theorem Move.linked {a : Act} {w w' : World} (h : Move a w w') (hw : w.Linked) : w'.Linked := by
  obtain ⟨w₁, he, l, q, hk, -, rfl⟩ := h
  intro p b cid hp hc
  obtain ⟨a, ha, hap⟩ := he.linked hw p b cid hp hc
  obtain ⟨a', ha', hkeep⟩ := hk.get ha
  exact ⟨a', ha', hkeep.player.trans hap⟩

namespace Server

theorem Does.binds {env : Env} {s : Server} {c : Command} {a : Act} {w : World} {cid : Nat} {id : String}
    (h : s.Does env c a w) (ha : a = .bound cid id ∨ a = .recalled cid id) : s.Binds env c cid id := by
  cases h with
  | bound ha' hp => rcases ha with ha | ha <;> cases ha; exact ⟨_, _, ha', .inr ⟨_, rfl, .inl hp⟩⟩
  | created ha' hd hnew hn => rcases ha with ha | ha <;> cases ha; exact ⟨_, _, ha', .inl ⟨hd, hnew⟩⟩
  | recalled ha' hp => rcases ha with ha | ha <;> cases ha; exact ⟨_, _, ha', .inr ⟨_, rfl, .inr hp⟩⟩
  | _ => rcases ha with ha | ha <;> cases ha

theorem Move.binding {a : Act} {w w' : World} (h : Move a w w') (hn : ∀ cid, a ≠ .connected cid) :
    Bound (fun cid id => a = .bound cid id ∨ a = .recalled cid id) w.links w'.links := by
  obtain ⟨w₁, he, l, q, hl, -, rfl⟩ := h
  exact (he.binding hn).trans hl.bound

/-- **A command binds a connection only by an authentication on it**, and undoes no binding. -/
theorem step_binding {env : Env} {s t : Server} {c : Command} {config : Config} (hb : s.world.Base config)
    (h : s.step env c = some t) {cid : Nat} {k' : Connection} (hk' : t.connections.get cid = some k') :
    (∀ k, s.connections.get cid = some k → ∀ id, k.player = some id → k'.player = some id) ∧
      ∀ id, k'.player = some id → (∃ k, s.connections.get cid = some k ∧ k.player = some id) ∨ s.Binds env c cid id := by
  by_cases hconn : ∃ x, c = .connected x
  · obtain ⟨x, rfl⟩ := hconn
    simp only [step] at h
    split at h
    · cases h
    rename_i hn
    cases h
    rw [connected, setConnection, IndexMap.get_insert] at hk'
    split at hk'
    · rename_i hx
      subst hx
      have hnone : s.connections.get cid = none := IndexMap.contains_eq_false.1 (by simpa using hn)
      cases hk'
      refine ⟨fun k hk => ?_, fun id hp => by cases hp⟩
      rw [hnone] at hk
      cases hk
    · refine ⟨fun k hk id hp => ?_, fun id hp => .inl ⟨k', hk', hp⟩⟩
      rw [hk'] at hk
      cases hk
      exact hp
  · have hbound : Bound (s.Binds env c) s.world.links t.world.links :=
      (step_chain hb h).relates (I := fun _ => True) (R := fun w w' => Bound (s.Binds env c) w.links w'.links)
        (fun _ => (Kept.refl _).bound) (fun _ _ _ => Bound.trans) (fun _ _ _ _ _ _ => trivial)
        (fun a w w' hd hm _ => (Move.binding hm (fun x hx => by
          subst hx
          cases hd with
          | connected hc => exact hconn ⟨_, hc⟩)).mono (fun _ _ => hd.binds)) trivial
    refine ⟨fun k hk id hp => hbound.stays (links_get hk) (links_get hk') hp, fun id hp => ?_⟩
    rcases hbound.new (links_get hk') hp with ⟨a, ha, hpa⟩ | hq
    · obtain ⟨k, hk, rfl⟩ := Option.map_eq_some_iff.1 ha
      exact .inl ⟨k, hk, hpa⟩
    · exact .inr hq

/-- **In every reachable state the current connections are bound**, so no two accounts share one. -/
theorem Run.linked {G : Env → Server → Command → Prop} {config : Config} {store : Store} {push : Bool} {s : Server}
    (h : Run G (boot config store push) s) : s.world.Linked :=
  h.invariant (fun _ _ _ _ _ _ _ _ _ hm hw => Move.linked hm hw) (boot_base config store push)
    (fun _ _ _ hq _ => absurd hq (Option.some_ne_none _).symm)

/-! A connection that is not its account's current one. -/

theorem receive_stale {s : Server} {cid : Nat} {k : Connection} {id : String} (hk : s.connections.get cid = some k)
    (hp : k.player = some id) (hne : s.connectionOf id ≠ some cid) (env : Env) (frame : Frame) :
    s.receive env cid frame = .ok s := by
  have hcur : s.isCurrent cid k = false := by
    unfold isCurrent
    rw [hp]
    exact decide_eq_false hne
  unfold receive
  rw [hk]
  dsimp only
  rw [hcur, Bool.not_false, Bool.or_true, if_pos rfl]

theorem datagram_stale {s : Server} {b : Bytes} {k : Connection} {id : String}
    (hk : s.connections.get (Udp.connectionOf b) = some k) (hp : k.player = some id)
    (hne : s.connectionOf id ≠ some (Udp.connectionOf b)) (source : String) (t : Nat) (challenge : Bytes) :
    s.datagram b source t challenge = .ok ⟨s, [], []⟩ := by
  refine datagram_ignored source t challenge (fun c p r u hb => absurd ?_ hne)
  unfold bearer at hb
  obtain ⟨c₀, hc₀, hb⟩ := Option.bind_eq_some_iff.1 hb
  obtain ⟨hget, -⟩ := Option.filter_eq_some_iff.1 hc₀
  rw [hk] at hget
  cases hget
  obtain ⟨p₀, hp₀, -⟩ := Option.bind_eq_some_iff.1 hb
  obtain ⟨hget, hcur⟩ := Option.filter_eq_some_iff.1 hp₀
  rw [hp] at hget
  unfold connectionOf
  rw [show s.players.get id = some p₀ from hget]
  exact of_decide_eq_true hcur

/-- A delayed frame of such a connection only leaves the queue. -/
theorem runDelayed_stale {s : Server} {d : Delayed} {k : Connection} {id : String}
    (hk : s.connections.get d.cid = some k) (hp : k.player = some id) (hne : s.connectionOf id ≠ some d.cid) {env : Env}
    (hdue : d.time ≤ env.now) (ds : List Delayed) :
    runDelayed env (d :: ds) s = runDelayed env ds (s.setConnection d.cid (unqueue d k)) := by
  rw [runDelayed, if_neg (Nat.not_lt_of_le hdue), hk]
  refine if_neg (fun hrun => hne ?_)
  unfold mayRun at hrun
  obtain ⟨p, hget, hcur⟩ := (Option.any_eq_true _ _).1 hrun
  simp only [Bool.and_eq_true, decide_eq_true_eq] at hcur
  rw [hp] at hget
  unfold connectionOf
  rw [show s.players.get id = some p from hget]
  exact hcur.1.2

/-- Its end takes nothing with it but its delayed frames. -/
theorem disconnect_stale {s : Server} {cid : Nat} {k : Connection} {id : String} (hk : s.connections.get cid = some k)
    (hp : k.player = some id) (hne : s.connectionOf id ≠ some cid) (env : Env) :
    s.disconnect env cid = .ok { s with
      delayed := s.delayed.filter (fun d => decide (d.cid ≠ cid)), connections := s.connections.shiftRemove cid } := by
  unfold disconnect
  rw [hk]
  dsimp only
  rw [hp]
  dsimp only
  cases hget : s.players.get id with
  | none => rfl
  | some p =>
    dsimp only
    refine if_neg (fun hcur => hne ?_)
    unfold connectionOf
    rw [hget]
    exact hcur

/-! What a datagram tunes. -/

/-- Connections changed in what they keep for datagrams only. -/
structure Tuned (s t : Server) : Prop where
  core : t.toCore = s.toCore
  offered : t.offered = s.offered
  connections : ∀ cid c', t.connections.get cid = some c' → ∃ c u i o, s.connections.get cid = some c ∧
    c' = { c with udp := u, udpIncomingRate := i, udpOutgoingRate := o }

omit [Extern] in
theorem Tuned.refl (s : Server) : s.Tuned s := ⟨rfl, rfl, fun _ c h => ⟨c, _, _, _, h, rfl⟩⟩

omit [Extern] in
theorem Tuned.trans {s t u : Server} (h : s.Tuned t) (h' : t.Tuned u) : s.Tuned u := by
  refine ⟨h'.core.trans h.core, h'.offered.trans h.offered, fun cid c hc => ?_⟩
  obtain ⟨c₁, u₁, i₁, o₁, hc₁, rfl⟩ := h'.connections cid c hc
  obtain ⟨c₂, u₂, i₂, o₂, hc₂, rfl⟩ := h.connections cid c₁ hc₁
  exact ⟨c₂, u₁, i₁, o₁, hc₂, rfl⟩

omit [Extern] in
theorem Tuned.setConnection {s : Server} {cid : Nat} {c : Connection} (hc : s.connections.get cid = some c)
    (u : Option Udp.Session) (i o : Udp.Rate) :
    s.Tuned (s.setConnection cid { c with udp := u, udpIncomingRate := i, udpOutgoingRate := o }) := by
  refine ⟨rfl, rfl, fun x d hd => ?_⟩
  rw [Server.setConnection, IndexMap.get_insert] at hd
  split at hd
  · rename_i hx
    cases hd
    exact ⟨c, u, i, o, hx ▸ hc, rfl⟩
  · exact ⟨d, _, _, _, hd, rfl⟩

theorem answer_tuned {s : Server} {cid : Nat} {c : Connection} (hc : s.connections.get cid = some c)
    (v : Option Udp.Session) (i : Udp.Rate) (u : Udp.Session) (source : String) (t : Nat) (kind : UInt8) (payload : Bytes) :
    s.Tuned (s.answer cid { c with udp := v, udpIncomingRate := i } u source t kind payload).1 := by
  unfold answer
  dsimp only
  split
  · exact .setConnection hc _ _ _
  · exact .setConnection hc _ _ _

theorem deliver_tuned (t : Nat) (sender payload : Bytes) (x : Server × List (String × Bytes)) (recipient : Nat × Nat) :
    x.1.Tuned (deliver t sender payload x recipient).1 := by
  unfold deliver
  split
  · exact .refl _
  rename_i c hc
  obtain ⟨hc, -⟩ := Option.filter_eq_some_iff.1 hc
  split
  · exact .refl _
  split
  · exact .refl _
  dsimp only
  split
  · exact .setConnection hc _ _ _
  · exact .setConnection hc _ _ _

theorem deliveries_tuned (t : Nat) (sender payload : Bytes) : ∀ (rs : List (Nat × Nat))
    (x : Server × List (String × Bytes)), x.1.Tuned (rs.foldl (deliver t sender payload) x).1
  | [], _ => .refl _
  | r :: rs, x => (deliver_tuned t sender payload x r).trans (deliveries_tuned t sender payload rs _)

/-- **A datagram changes no connection but in what it keeps for datagrams.** -/
theorem datagram_tuned (s : Server) (b : Bytes) (source : String) (t : Nat) (challenge : Bytes) :
    (s.datagram b source t challenge).All (fun r => s.Tuned r.server) := by
  unfold datagram
  refine Out.all_ite (fun _ => .refl s) (fun _ => ?_)
  dsimp only
  split
  · exact .refl s
  rename_i c p r u hb
  have hc := (bearer_some hb).2.1
  refine Out.all_ite (fun _ => .refl s) (fun _ => ?_)
  split
  · exact .refl s
  refine all_mapOut (P := fun r : Reply => s.Tuned r.server) ?_ (fun _ h => h)
  refine Out.all_ite (fun _ => .setConnection hc _ _ _) (fun _ => Out.all_ite (fun _ => ?_) (fun _ => ?_))
  · exact answer_tuned hc _ _ _ source t 3 challenge
  refine Out.all_ite (fun _ => ?_) (fun _ => ?_)
  · unfold confirm
    split
    · exact answer_tuned hc _ _ _ source t 4 (Udp.payloadOf b)
    · exact .setConnection hc _ _ _
  · unfold relayPacket
    refine Out.all_ite (fun _ => Out.all_unwrap (fun sender _ => ?_)) (fun _ => .setConnection hc _ _ _)
    exact Tuned.trans (.setConnection hc _ _ _) (deliveries_tuned t sender (Udp.payloadOf b) _ (_, []))

/-! Game packets name their sender. -/

omit [Extern] in
theorem length_u64Bytes (n : Nat) : (Udp.u64Bytes n).length = 8 := rfl

/-- The kind and the address of a packet stand where they were put. -/
theorem kindOf_encode (secret : Bytes) (kind : UInt8) (cid n : Nat) (address payload : Bytes) :
    Udp.kindOf (Udp.encode secret kind cid n address payload) = kind := rfl

theorem targetOf_encode (secret : Bytes) (kind : UInt8) (cid n : Nat) {address : Bytes} (payload : Bytes)
    (h : address.length = 16) : Udp.targetOf (Udp.encode secret kind cid n address payload) = address := by
  have hdrop : (Udp.encode secret kind cid n address payload).drop 21 = address ++ (payload ++
      Extern.hmacSha256 secret (Udp.magic ++ kind :: (Udp.u64Bytes cid ++ Udp.u64Bytes n ++ address ++ payload))) := by
    unfold Udp.encode Udp.magic
    dsimp only
    generalize Extern.hmacSha256 secret _ = tag
    simp only [List.cons_append, List.nil_append, List.drop_succ_cons, List.append_assoc]
    rw [← List.append_assoc (Udp.u64Bytes cid) (Udp.u64Bytes n)]
    exact List.drop_left' (by rw [List.length_append, length_u64Bytes, length_u64Bytes])
  unfold Udp.targetOf
  rw [hdrop, ← h, List.take_left]

/-- The packet is none of game traffic, or names this sender. -/
def Signs (sender : Bytes) (x : String × Bytes) : Prop := Udp.kindOf x.2 = 5 → Udp.targetOf x.2 = sender

theorem deliver_signs {t : Nat} {sender payload : Bytes} (h : sender.length = 16) (x : Server × List (String × Bytes))
    (recipient : Nat × Nat) (hx : ∀ y ∈ x.2, Signs sender y) :
    ∀ y ∈ (deliver t sender payload x recipient).2, Signs sender y := by
  unfold deliver
  split
  · exact hx
  split
  · exact hx
  split
  · exact hx
  dsimp only
  split
  · rename_i u' packet hp
    split at hp
    · obtain ⟨n, -, rfl⟩ := packet_some hp
      intro y hy
      rcases List.mem_append.1 hy with hy | hy
      · exact hx y hy
      · rw [List.mem_singleton.1 hy]
        exact fun _ => targetOf_encode _ _ _ _ _ h
    · cases hp
  · exact hx

theorem deliveries_sign {t : Nat} {sender payload : Bytes} (h : sender.length = 16) : ∀ (rs : List (Nat × Nat))
    (x : Server × List (String × Bytes)), (∀ y ∈ x.2, Signs sender y) →
      ∀ y ∈ (rs.foldl (deliver t sender payload) x).2, Signs sender y
  | [], _, hx => hx
  | r :: rs, x, hx => deliveries_sign h rs _ (deliver_signs h x r hx)

/-- **A game packet names the account of the connection its datagram names.** -/
theorem datagram_signs {s : Server} (hk : s.world.Keyed) (b : Bytes) (source : String) (t : Nat) (challenge : Bytes) :
    (s.datagram b source t challenge).All (fun r => ∀ y ∈ r.packets, Udp.kindOf y.2 = 5 → ∃ c id,
      s.connections.get (Udp.connectionOf b) = some c ∧ c.player = some id ∧
        s.connectionOf id = some (Udp.connectionOf b) ∧ parseUuid id = some (Udp.targetOf y.2)) := by
  have none5 : ∀ {x : Server × List (String × Bytes)} {kind : UInt8}, kind ≠ 5 →
      (x.2 = [] ∨ ∃ a u cid n address payload, x.2 = [(a, Udp.encode u kind cid n address payload)]) →
      ∀ y ∈ x.2, Udp.kindOf y.2 ≠ 5 := by
    intro x kind hkind hx y hy
    rcases hx with hx | ⟨a, u, cid, n, address, payload, hx⟩
    · rw [hx] at hy; cases hy
    · rw [hx] at hy
      rw [List.mem_singleton.1 hy, kindOf_encode]
      exact hkind
  unfold datagram
  refine Out.all_ite (fun _ y hy => absurd hy List.not_mem_nil) (fun _ => ?_)
  dsimp only
  split
  · exact fun y hy => absurd hy List.not_mem_nil
  rename_i c p r u hb
  refine Out.all_ite (fun _ y hy => absurd hy List.not_mem_nil) (fun _ => ?_)
  split
  · exact fun y hy => absurd hy List.not_mem_nil
  obtain ⟨-, hc, ⟨id, hid, hp⟩, -⟩ := bearer_some hb
  have hpid : p.id = id := hk.seats (seats_eq hp)
  have hcur : s.connectionOf id = some (Udp.connectionOf b) := by
    unfold bearer at hb
    obtain ⟨c₀, hc₀, hb⟩ := Option.bind_eq_some_iff.1 hb
    obtain ⟨p₀, hp₀, hb⟩ := Option.bind_eq_some_iff.1 hb
    obtain ⟨-, hcur⟩ := Option.filter_eq_some_iff.1 hp₀
    obtain ⟨r₀, -, hb⟩ := Option.bind_eq_some_iff.1 hb
    obtain ⟨u₀, -, he⟩ := Option.map_eq_some_iff.1 hb
    cases he
    unfold connectionOf
    rw [hp]
    exact of_decide_eq_true hcur
  refine all_mapOut (P := fun r : Reply => ∀ y ∈ r.packets, Udp.kindOf y.2 = 5 → ∃ c id,
    s.connections.get (Udp.connectionOf b) = some c ∧ c.player = some id ∧
      s.connectionOf id = some (Udp.connectionOf b) ∧ parseUuid id = some (Udp.targetOf y.2)) ?_ (fun _ h => h)
  refine Out.all_ite (fun _ y hy => absurd hy List.not_mem_nil) (fun _ => Out.all_ite (fun _ y hy h5 => ?_) (fun _ => ?_))
  · refine absurd h5 (none5 (show (3 : UInt8) ≠ 5 by decide) ?_ y hy)
    exact (answer_touches _ _ _ _ _ _ _ _).2.imp (fun h => h) (fun h => h.elim (fun n h => ⟨_, _, _, n, _, _, h⟩))
  refine Out.all_ite (fun _ => ?_) (fun _ => ?_)
  · unfold confirm
    split
    · refine fun y hy h5 => absurd h5 (none5 (show (4 : UInt8) ≠ 5 by decide) ?_ y hy)
      exact (answer_touches _ _ _ _ _ _ _ _).2.imp (fun h => h) (fun h => h.elim (fun n h => ⟨_, _, _, n, _, _, h⟩))
    · exact fun y hy => absurd hy List.not_mem_nil
  · unfold relayPacket
    refine Out.all_ite (fun _ => Out.all_unwrap (fun sender hs y hy h5 => ?_)) (fun _ y hy => absurd hy List.not_mem_nil)
    refine ⟨c, id, hc, hid, hcur, ?_⟩
    rw [← hpid, hs, deliveries_sign (length_parseUuid hs) _ (_, []) (fun _ hz => absurd hz List.not_mem_nil) y hy h5]

/-- **Sessions are fenced and senders are authentic.**  In every run of commands and datagrams: a binding is for ever and
made only by a login that creates the account or gives its password; a connection that is not its account's current one
does nothing, whatever arrives on it, and takes nothing with it when it ends; every frame a command sends names no sender,
or the account bound to the current connection whose frame the command executes; and every game packet names the account
bound to the connection of its datagram. -/
theorem sessions_are_fenced {config : Config} {store : Store} {push : Bool} {is : List Input} {log : List Udp.Event}
    {s : Server} (h : Serves (boot config store push) is log s) :
    (∀ i r, s.serve i = some r → ∀ cid k', r.server.connections.get cid = some k' →
      (∀ k, s.connections.get cid = some k → ∀ id, k.player = some id → k'.player = some id) ∧
      ∀ id, k'.player = some id → (∃ k, s.connections.get cid = some k ∧ k.player = some id) ∨
        ∃ env c, i = .command env c ∧ s.Binds env c cid id) ∧
    (∀ (t : Server) cid k id, t.connections.get cid = some k → k.player = some id → t.connectionOf id ≠ some cid →
      (∀ env frame, t.receive env cid frame = .ok t) ∧
      (∀ env d ds, d.cid = cid → d.time ≤ env.now →
        runDelayed env (d :: ds) t = runDelayed env ds (t.setConnection cid (unqueue d k))) ∧
      (∀ b source now challenge, Udp.connectionOf b = cid → t.datagram b source now challenge = .ok ⟨t, [], []⟩) ∧
      ∀ env, t.disconnect env cid = .ok { t with
        delayed := t.delayed.filter (fun d => decide (d.cid ≠ cid)), connections := t.connections.shiftRemove cid }) ∧
    (∀ env c t, s.step env c = some t → ∃ new, t.offered = s.offered ++ new ∧ ∀ x ∈ new, s.Utters env c x.2) ∧
    ∀ b source now challenge r, (s.datagram b source now challenge).state = some r → ∀ y ∈ r.packets,
      Udp.kindOf y.2 = 5 → ∃ k id, s.connections.get (Udp.connectionOf b) = some k ∧ k.player = some id ∧
        s.connectionOf id = some (Udp.connectionOf b) ∧ parseUuid id = some (Udp.targetOf y.2) := by
  have hb : s.world.Base config := h.base (boot_base config store push)
  refine ⟨fun i r hr cid k' hk' => ?_, fun t cid k id hk hp hne => ⟨fun env frame => receive_stale hk hp hne env frame, ?_, ?_,
    fun env => disconnect_stale hk hp hne env⟩, fun env c t ht => ?_, fun b source now challenge r hr => ?_⟩
  · cases i with
    | command env c =>
      obtain ⟨t, ht, rfl⟩ := Option.map_eq_some_iff.1 hr
      obtain ⟨hstays, hnew⟩ := step_binding hb ht hk'
      exact ⟨hstays, fun id hp => (hnew id hp).imp_right (fun hbinds => ⟨env, c, rfl, hbinds⟩)⟩
    | datagram b source now challenge =>
      have ht : s.Tuned r.server := Out.all_of_state (P := fun r : Reply => s.Tuned r.server)
        (datagram_tuned s b source now challenge) hr
      obtain ⟨k, u, i, o, hk, rfl⟩ := ht.connections cid k' hk'
      refine ⟨fun k₀ hk₀ id hp => ?_, fun id hp => .inl ⟨k, hk, hp⟩⟩
      rw [hk] at hk₀
      cases hk₀
      exact hp
  · rintro env d ds rfl hdue
    exact runDelayed_stale hk hp hne hdue ds
  · rintro b source now challenge rfl
    exact datagram_stale hk hp hne source now challenge
  · rcases step_emits ht with ⟨cid, -, -, rfl⟩ | he
    · exact ⟨[], (List.append_nil _).symm, fun x hx => nomatch hx⟩
    · exact he.offered
  · exact Out.all_of_state (datagram_signs hb.keyed b source now challenge) hr

end Server

namespace Trace

open Server

def signIn : Value := message "authenticate" [("playerId", .str account), ("password", .str "secret-0")]

/-- The first account opens its room and returns on a second connection. -/
def replaced : List Input :=
  (opening ++ [(Env.plain 2, Command.connected 2), (Env.plain 2, Command.tells 2 signIn)]).map (fun x => .command x.1 x.2)

end Trace

namespace Server

omit [Extern] in
theorem sessions_are_fenced_replaced :
    letI := Extern.reading [Trace.signUp, Trace.createRoom, Trace.signIn]
    ∃ log s k, Serves (boot .default .empty false) Trace.replaced log s ∧ s.connections.get 1 = some k ∧
      k.player = some Trace.account ∧ s.connectionOf Trace.account = some 2 ∧
      ∀ frame, s.receive (Env.plain 3) 1 frame = .ok s := by
  let _ := Extern.reading [Trace.signUp, Trace.createRoom, Trace.signIn]
  have h : (serveAll Trace.replaced [] (boot .default .empty false)).any (fun x =>
      (x.2.connections.get 1).any (fun k => decide (k.player = some Trace.account)) &&
        decide (x.2.connectionOf Trace.account = some 2)) = true := by
    decide +kernel
  obtain ⟨⟨log, s⟩, hs, ha⟩ := (Option.any_eq_true _ _).1 h
  rw [Bool.and_eq_true] at ha
  obtain ⟨k, hk, hp⟩ := (Option.any_eq_true _ _).1 ha.1
  have hp := of_decide_eq_true hp
  have hcur := of_decide_eq_true ha.2
  have hrun := serveAll_serves .refl hs
  have hfence := (sessions_are_fenced hrun).2.1 s 1 k _ hk hp (fun he => by rw [hcur] at he; cases he)
  exact ⟨log, s, k, hrun, hk, hp, hcur, hfence.1 (Env.plain 3)⟩

end Server
end Relay
