import GameRelay.Binding
import GameRelay.Windows
/-!
# Budgets — how many datagrams a connection gets through

A connection has a budget of incoming datagrams and one of outgoing packets a second.  Only datagrams spend them, and no
command touches them (`Unspent`).  `Carries` is a run with its traffic: every datagram a budget let through and every
packet sent, each with the window it counts in.  `Budgeted` is what every run keeps.
-/
namespace Relay

open Udp Server

/-! Commands and budgets. -/

/-- The link stays with its budgets, or goes. -/
def Unspent (a b : Option Link) : Prop :=
  ∀ l', b = some l' → ∃ l, a = some l ∧ l'.incoming = l.incoming ∧ l'.outgoing = l.outgoing

theorem Unspent.refl (a : Option Link) : Unspent a a := fun l hl => ⟨l, hl, rfl, rfl⟩

theorem Unspent.gone (a : Option Link) : Unspent a none := fun _ h => nomatch h

theorem Unspent.trans {a b c : Option Link} (h : Unspent a b) (h' : Unspent b c) : Unspent a c := fun l hl => by
  obtain ⟨l₁, hl₁, hin₁, hout₁⟩ := h' l hl
  obtain ⟨l₂, hl₂, hin₂, hout₂⟩ := h l₁ hl₁
  exact ⟨l₂, hl₂, hin₁.trans hin₂, hout₁.trans hout₂⟩

theorem Kept.unspent {l l' : Nat → Option Link} (h : Kept l l') (cid : Nat) : Unspent (l cid) (l' cid) := fun b hb => by
  obtain ⟨a, ha, hk⟩ := h.get' hb
  exact ⟨a, ha, hk.incoming, hk.outgoing⟩

theorem closeLink_unspent (links : Nat → Option Link) (old : Option Nat) (cid : Nat) :
    Unspent (links cid) (closeLink links old cid) := fun b hb => by
  unfold closeLink at hb
  split at hb
  · obtain ⟨a, ha, rfl⟩ := Option.map_eq_some_iff.1 hb
    exact ⟨a, ha, rfl, rfl⟩
  · exact ⟨b, hb, rfl, rfl⟩

/-- **No act but the connection's own start touches its budgets.** -/
theorem Effect.unspent [Extern] {a : Act} {w w' : World} (h : Effect a w w') {cid : Nat} (hn : a ≠ .connected cid) :
    Unspent (w.links cid) (w'.links cid) := by
  have left : ∀ {p : String} {d : Bool} {w₀ : World}, w₀.Left p d w' → Unspent (w₀.links cid) (w'.links cid) := by
    intro p d w₀ h
    rw [h.frame.2.2]
    exact .refl _
  -- one link changes
  have set : ∀ {k : Nat} {l : Nat → Option Link} {o : Option Link}, Unspent (l k) o →
      Unspent (l cid) (Function.update l k o cid) := by
    intro k l o h
    rw [Function.update_apply]
    split
    · rename_i hk; rw [hk]; exact h
    · exact .refl _
  cases h with
  | connected h =>
    rename_i x
    show Unspent _ (Function.update w.links x _ cid)
    rw [Function.update_of_ne (fun hx => hn (by rw [hx]))]
    exact .refl _
  | unlinked hl hq => exact set (.gone _)
  | gone hl hp hq hc h => exact Unspent.trans (set (.gone _)) (left h)
  | bound hl hp hq =>
    rename_i x id q l
    refine (closeLink_unspent w.links q.connection cid).trans (set (fun l' hl' => ?_))
    cases hl'
    unfold closeLink
    rw [hl]
    split
    · exact ⟨_, rfl, rfl, rfl⟩
    · exact ⟨l, rfl, rfl, rfl⟩
  | recalled hl hp => exact set (fun l' hl' => by cases hl'; exact ⟨_, hl, rfl, rfl⟩)
  | rekeyed hl hu => exact set (fun l' hl' => by cases hl'; exact ⟨_, hl, rfl, rfl⟩)
  | departed h => exact left h
  | left h => exact left h
  | slept hr hp ha h => cases h; exact .refl _
  | _ => exact .refl _

theorem Move.unspent [Extern] {a : Act} {w w' : World} (h : Move a w w') {cid : Nat} (hn : a ≠ .connected cid) :
    Unspent (w.links cid) (w'.links cid) := by
  obtain ⟨w₁, he, l, q, hl, -, rfl⟩ := h
  exact (he.unspent hn).trans (hl.unspent cid)

namespace Server

/-- **A command leaves the budgets of every connection as they are**, whatever it does to its session. -/
theorem step_unspent [Extern] {env : Env} {s t : Server} {c : Command} {config : Config} (hb : s.world.Base config)
    (h : s.step env c = some t) {cid : Nat} (hn : c ≠ .connected cid) {k' : Connection}
    (hk' : t.connections.get cid = some k') : ∃ k, s.connections.get cid = some k ∧
      k'.udpIncomingRate = k.udpIncomingRate ∧ k'.udpOutgoingRate = k.udpOutgoingRate := by
  have hunspent : Unspent (s.world.links cid) (t.world.links cid) :=
    (step_chain hb h).relates (I := fun _ => True) (R := fun w w' => Unspent (w.links cid) (w'.links cid))
      (fun _ => .refl _) (fun _ _ _ => Unspent.trans) (fun _ _ _ _ _ _ => trivial)
      (fun a w w' hd hm _ => hm.unspent (fun ha => by
        subst ha
        cases hd with
        | connected hc => exact hn hc)) trivial
  obtain ⟨l, hl, hin, hout⟩ := hunspent _ (links_get hk')
  obtain ⟨k, hk, rfl⟩ := Option.map_eq_some_iff.1 hl
  exact ⟨k, hk, hin, hout⟩

end Server

/-! What passes. -/

/-- A datagram that a connection's budget let through, or a packet sent to the connection. -/
structure Udp.Passage where
  cid : Nat
  time : Nat
  /-- When the window it counts in was opened. -/
  window : Nat
  deriving DecidableEq

structure Traffic where
  incoming : List Passage
  outgoing : List Passage
  /-- The packets sent, each after the key of its session. -/
  signed : List (Bytes × Bytes)

namespace Server

def incomingWindow (s : Server) (cid : Nat) : Nat := ((s.connections.get cid).map (·.udpIncomingRate.time)).getD 0

def outgoingWindow (s : Server) (cid : Nat) : Nat := ((s.connections.get cid).map (·.udpOutgoingRate.time)).getD 0

def keyOf (s : Server) (cid : Nat) : Bytes := ((s.udpOf cid).map (·.secret)).getD []

/-- The number a connection starts with. -/
def Input.number : Input → Option Nat
  | .command _ (.connected cid) => some cid
  | _ => none

variable [Extern]

/-- Does the datagram pass every check, its connection's budget included? -/
def processes (s : Server) (b : Bytes) (t : Nat) : Bool :=
  shaped s.config b && (s.bearer (Udp.connectionOf b)).any (fun x => authentic x.2.2.2.secret b &&
    (x.2.2.2.replay.accept (sequenceOf b)).isSome &&
    (x.1.udpIncomingRate.accept t s.config.udpIncomingPacketsPerSecond).2)

def processed (s : Server) : Input → Reply → List Passage
  | .command _ _, _ => []
  | .datagram b _ t _, r =>
    if s.processes b t then [⟨Udp.connectionOf b, t, r.server.incomingWindow (Udp.connectionOf b)⟩] else []

omit [Extern] in
/-- A packet is for the connection it names. -/
def emitted (t : Nat) (r : Reply) : List Passage :=
  r.packets.map (fun x => ⟨Udp.connectionOf x.2, t, r.server.outgoingWindow (Udp.connectionOf x.2)⟩)

omit [Extern] in
def signed (r : Reply) : List (Bytes × Bytes) := r.packets.map (fun x => (r.server.keyOf (Udp.connectionOf x.2), x.2))

/-- A run over these inputs, with the log of what it did to sessions and its traffic. -/
inductive Carries (s : Server) : List Input → List Udp.Event → Traffic → Server → Prop
  | refl : Carries s [] [] ⟨[], [], []⟩ s
  | tail {is : List Input} {i : Input} {log : List Udp.Event} {x : Traffic} {t : Server} {r : Reply}
      (h : Carries s is log x t) (hi : t.serve i = some r) :
      Carries s (is ++ [i]) (log ++ r.events)
        ⟨x.incoming ++ t.processed i r, x.outgoing ++ emitted i.time r, x.signed ++ signed r⟩ r.server

theorem Carries.serves {s t : Server} {is : List Input} {log : List Udp.Event} {x : Traffic}
    (h : Carries s is log x t) : Serves s is log t := by
  induction h with
  | refl => exact .refl
  | tail _ hi ih => exact ih.tail hi

/-! One datagram. -/

/-- One second's windows. -/
abbrev Spends (limit : Nat) (l : List Passage) (rate : Rate) (now : Nat) : Prop :=
  Metered 1000 limit Passage.time Passage.window l rate.time rate.count now

omit [Extern] in
/-- **What a budget accepts, its window counts.** -/
theorem Spends.accept {limit t : Nat} {l : List Passage} {rate : Rate} (h : Spends limit l rate t) :
    Spends limit l (rate.accept t limit).1 t ∧
      ((rate.accept t limit).2 = true → ∀ x : Passage, x.time = t → x.window = (rate.accept t limit).1.time →
        Spends limit (l ++ [x]) (rate.accept t limit).1 t) := by
  have hin : ∀ rate : Rate, Spends limit l rate t → t < rate.time + 1000 → ∀ rate' : Rate × Bool,
      rate' = (if limit ≤ rate.count then (rate, false) else ({ rate with count := rate.count + 1 }, true)) →
      Spends limit l rate'.1 t ∧ (rate'.2 = true → ∀ x : Passage, x.time = t → x.window = rate'.1.time →
        Spends limit (l ++ [x]) rate'.1 t) := by
    intro rate h hnow rate' hr
    split at hr
    · rw [hr]; exact ⟨h, fun hc => nomatch hc⟩
    · rename_i hlt
      rw [hr]
      exact ⟨h.charge, fun _ x ht hw => h.count_one (Nat.lt_of_not_le hlt) hnow ht hw⟩
  have hpast := h.past
  by_cases hopen : 1000 ≤ t - rate.time
  · refine hin ⟨t, 0⟩ (h.reopen (by omega) (by omega)) (Nat.lt_add_of_pos_right (by omega)) _ ?_
    simp only [Rate.accept, if_pos hopen]
  · refine hin rate h (by omega) _ ?_
    simp only [Rate.accept, if_neg hopen]

omit [Extern] in
/-- A window stays open, or the next one opens once it is over. -/
theorem accept_time (rate : Rate) (t limit : Nat) : (rate.accept t limit).1.time = rate.time ∨
    (1000 ≤ t - rate.time ∧ (rate.accept t limit).1.time = t) := by
  by_cases hopen : 1000 ≤ t - rate.time
  · refine .inr ⟨hopen, ?_⟩
    simp only [Rate.accept, if_pos hopen]
    split <;> rfl
  · refine .inl ?_
    simp only [Rate.accept, if_neg hopen]
    split <;> rfl

def incomingRate (s : Server) (cid : Nat) : Option Rate := (s.connections.get cid).map (·.udpIncomingRate)

omit [Extern] in
theorem incomingRate_setConnection (s : Server) (cid : Nat) (c : Connection) (k : Nat) :
    (s.setConnection cid c).incomingRate k = if k = cid then some c.udpIncomingRate else s.incomingRate k := by
  unfold incomingRate Server.setConnection
  dsimp only
  rw [IndexMap.get_insert]
  split <;> rfl

omit [Extern] in
/-- A connection changes in all but its budget of incoming datagrams. -/
theorem incomingRate_same {s : Server} {cid : Nat} {c c' : Connection} (hc : s.connections.get cid = some c)
    (h : c'.udpIncomingRate = c.udpIncomingRate) : (s.setConnection cid c').incomingRate = s.incomingRate := by
  funext k
  rw [incomingRate_setConnection]
  split
  · rename_i hk
    unfold incomingRate
    rw [hk, hc, h]
    rfl
  · rfl

theorem deliver_incoming (t : Nat) (sender payload : Bytes) (x : Server × List (String × Bytes)) (recipient : Nat × Nat) :
    (deliver t sender payload x recipient).1.incomingRate = x.1.incomingRate := by
  unfold deliver
  split
  · rfl
  rename_i c hc
  obtain ⟨hc, -⟩ := Option.filter_eq_some_iff.1 hc
  split
  · rfl
  split
  · rfl
  dsimp only
  split <;> exact incomingRate_same hc rfl

theorem deliveries_incoming (t : Nat) (sender payload : Bytes) : ∀ (rs : List (Nat × Nat))
    (x : Server × List (String × Bytes)), (rs.foldl (deliver t sender payload) x).1.incomingRate = x.1.incomingRate
  | [], _ => rfl
  | r :: rs, x => (deliveries_incoming t sender payload rs _).trans (deliver_incoming t sender payload x r)

theorem answer_incoming (s : Server) (cid : Nat) (c : Connection) (u : Udp.Session) (source : String) (t : Nat)
    (kind : UInt8) (payload : Bytes) :
    (s.answer cid c u source t kind payload).1.incomingRate = (s.setConnection cid c).incomingRate := by
  have hset : ∀ c' : Connection, c'.udpIncomingRate = c.udpIncomingRate →
      (s.setConnection cid c').incomingRate = (s.setConnection cid c).incomingRate := fun c' he => by
    funext k
    rw [incomingRate_setConnection, incomingRate_setConnection, he]
  unfold answer
  dsimp only
  split <;> exact hset _ rfl

/-- **The budget of incoming datagrams is spent by the connection's own datagrams**, one each, as far as they count. -/
def Admitted (s : Server) (b : Bytes) (t : Nat) (s' : Server) : Prop := ∀ k,
  (s'.incomingRate k = s.incomingRate k ∧ (k = Udp.connectionOf b → s.processes b t = false)) ∨
    ∃ rate, k = Udp.connectionOf b ∧ s.incomingRate k = some rate ∧
      s'.incomingRate k = some (rate.accept t s.config.udpIncomingPacketsPerSecond).1 ∧
      s.processes b t = (rate.accept t s.config.udpIncomingPacketsPerSecond).2

theorem Admitted.none {s : Server} {b : Bytes} {t : Nat} (h : s.processes b t = false) : s.Admitted b t s :=
  fun _ => .inl ⟨rfl, fun _ => h⟩

theorem Admitted.one {s s' : Server} {b : Bytes} {t : Nat} {c c' : Connection}
    (hc : s.connections.get (Udp.connectionOf b) = some c)
    (hr : c'.udpIncomingRate = (c.udpIncomingRate.accept t s.config.udpIncomingPacketsPerSecond).1)
    (hp : s.processes b t = (c.udpIncomingRate.accept t s.config.udpIncomingPacketsPerSecond).2)
    (h : s'.incomingRate = (s.setConnection (Udp.connectionOf b) c').incomingRate) : s.Admitted b t s' := fun k => by
  rw [h, incomingRate_setConnection]
  split
  · rename_i hk
    refine .inr ⟨c.udpIncomingRate, hk, ?_, congrArg some hr, hp⟩
    unfold incomingRate
    rw [hk, hc]
    rfl
  · rename_i hk
    exact .inl ⟨rfl, fun h => absurd h hk⟩

theorem datagram_admitted (s : Server) (b : Bytes) (source : String) (t : Nat) (challenge : Bytes) :
    (s.datagram b source t challenge).All (fun r => s.Admitted b t r.server) := by
  unfold datagram
  refine Out.all_ite (fun h => .none (by unfold processes; rw [h]; rfl)) (fun hshape => ?_)
  replace hshape := eq_true_of_ne_false hshape
  dsimp only
  split
  · rename_i hb
    exact .none (by unfold processes; rw [hb, hshape]; rfl)
  rename_i c p r u hb
  have hc := (bearer_some hb).2.1
  have hproc : s.processes b t = (authentic u.secret b && (u.replay.accept (sequenceOf b)).isSome &&
      (c.udpIncomingRate.accept t s.config.udpIncomingPacketsPerSecond).2) := by
    unfold processes
    rw [hb, hshape]
    rfl
  refine Out.all_ite (fun h => .none (by rw [hproc, h]; rfl)) (fun hauth => ?_)
  replace hauth := eq_true_of_ne_false hauth
  split
  · rename_i h
    exact .none (by rw [hproc, h, hauth]; rfl)
  rename_i replay hreplay
  have hp : s.processes b t = (c.udpIncomingRate.accept t s.config.udpIncomingPacketsPerSecond).2 := by
    rw [hproc, hauth, hreplay]
    rfl
  refine all_mapOut (P := fun r : Reply => s.Admitted b t r.server) ?_ (fun _ h => h)
  refine Out.all_ite (fun _ => .one hc rfl hp rfl) (fun _ => Out.all_ite (fun _ => ?_) (fun _ => ?_))
  · exact .one hc rfl hp (answer_incoming s _ _ _ source t 3 challenge)
  refine Out.all_ite (fun _ => ?_) (fun _ => ?_)
  · unfold confirm
    split
    · exact .one hc rfl hp (answer_incoming s _ _ _ source t 4 (payloadOf b))
    · exact .one hc rfl hp rfl
  · unfold relayPacket
    refine Out.all_ite (fun _ => Out.all_unwrap (fun sender _ => ?_)) (fun _ => .one hc rfl hp rfl)
    exact .one hc rfl hp (deliveries_incoming t sender (payloadOf b) _ (_, []))

/-- **A datagram that is not processed sends nothing**, and at most spends its number. -/
theorem unprocessed {s : Server} {b : Bytes} {t : Nat} (h : s.processes b t = false) (source : String) (challenge : Bytes) :
    (s.datagram b source t challenge).All (fun r => r.packets = [] ∧
      ∀ e ∈ r.events, ∃ cid key n, e = .spent cid key n) := by
  have none : (Out.ok ⟨s, [], []⟩ : Out Reply).All (fun r => r.packets = [] ∧
      ∀ e ∈ r.events, ∃ cid key n, e = .spent cid key n) := ⟨rfl, fun _ h => nomatch h⟩
  unfold datagram
  refine Out.all_ite (fun _ => none) (fun hshape => ?_)
  dsimp only
  split
  · exact none
  rename_i c p r u hb
  refine Out.all_ite (fun _ => none) (fun hauth => ?_)
  split
  · exact none
  rename_i replay hreplay
  have hrate : (c.udpIncomingRate.accept t s.config.udpIncomingPacketsPerSecond).2 = false := by
    unfold processes at h
    rw [hb, eq_true_of_ne_false hshape, Bool.true_and, Option.any_some, eq_true_of_ne_false hauth, hreplay] at h
    exact h
  rw [if_pos hrate]
  exact ⟨rfl, fun e he => ⟨_, _, _, List.mem_singleton.1 he⟩⟩

/-! Packets sent. -/

/-- The passages of these packets to the connection, in this window. -/
def passages (cid t w : Nat) (packets : List (String × Bytes)) : List Passage :=
  (packets.filter (fun x => decide (Udp.connectionOf x.2 = cid))).map (fun _ => ⟨cid, t, w⟩)

omit [Extern] in
theorem passages_snoc (cid t w : Nat) (packets : List (String × Bytes)) (x : String × Bytes) :
    passages cid t w (packets ++ [x]) =
      passages cid t w packets ++ if Udp.connectionOf x.2 = cid then [⟨cid, t, w⟩] else [] := by
  unfold passages
  rw [List.filter_append, List.map_append]
  simp only [List.filter_cons, List.filter_nil, decide_eq_true_eq]
  split <;> rfl

/-- The connection's budget has counted the packets sent to it. -/
structure Tallied (limit cid t : Nat) (base : List Passage) (x : Server × List (String × Bytes)) : Prop where
  spends : ∀ c, x.1.connections.get cid = some c →
    Spends limit (base ++ passages cid t c.udpOutgoingRate.time x.2) c.udpOutgoingRate t
  absent : x.1.connections.get cid = none → ∀ y ∈ x.2, Udp.connectionOf y.2 ≠ cid

/-! A packet's numbers stand where they were put. -/

omit [Extern] in
theorem bigEndian_u64Bytes {n : Nat} (h : n < 2 ^ 64) : bigEndian (u64Bytes n) = n := by
  unfold bigEndian u64Bytes u32Bytes
  simp only [List.cons_append, List.nil_append, List.foldl_cons, List.foldl_nil, UInt8.toNat_ofNat']
  omega

theorem connectionOf_encode (secret : Bytes) (kind : UInt8) {cid : Nat} (n : Nat) (address payload : Bytes)
    (h : cid < 2 ^ 64) : Udp.connectionOf (encode secret kind cid n address payload) = cid := by
  rw [show Udp.connectionOf (encode secret kind cid n address payload) = bigEndian (u64Bytes cid) from rfl]
  exact bigEndian_u64Bytes h

theorem sequenceOf_encode (secret : Bytes) (kind : UInt8) (cid : Nat) {n : Nat} (address payload : Bytes)
    (h : n < 2 ^ 64) : sequenceOf (encode secret kind cid n address payload) = n := by
  rw [show sequenceOf (encode secret kind cid n address payload) = bigEndian (u64Bytes n) from rfl]
  exact bigEndian_u64Bytes h

namespace Tallied

variable {limit cid t : Nat} {base : List Passage} {s : Server} {ps : List (String × Bytes)}

omit [Extern] in
/-- A connection changes in all but its budget of outgoing packets. -/
theorem setConnection (h : Tallied limit cid t base (s, ps)) {k : Nat} {c c' : Connection}
    (hc : s.connections.get k = some c) (hr : c'.udpOutgoingRate = c.udpOutgoingRate) :
    Tallied limit cid t base (s.setConnection k c', ps) := by
  by_cases hk : cid = k
  · subst hk
    have hget : (s.setConnection cid c').connections.get cid = some c' := IndexMap.get_insert_self ..
    refine ⟨fun d hd => ?_, fun hn => ?_⟩
    · rw [hget] at hd
      cases hd
      rw [hr]
      exact h.spends c hc
    · rw [hget] at hn; cases hn
  · have hget : (s.setConnection k c').connections.get cid = s.connections.get cid := IndexMap.get_insert_ne _ _ hk
    exact ⟨fun d hd => h.spends d (hget ▸ hd), fun hn => h.absent (hget ▸ hn)⟩

omit [Extern] in
/-- The window of the packets sent in this instant stays open. -/
theorem passages_accept {c : Connection} (h : Spends limit (base ++ passages cid t c.udpOutgoingRate.time ps) c.udpOutgoingRate t) :
    passages cid t (c.udpOutgoingRate.accept t limit).1.time ps = passages cid t c.udpOutgoingRate.time ps := by
  rcases accept_time c.udpOutgoingRate t limit with he | ⟨hover, -⟩
  · rw [he]
  · have hnone : ps.filter (fun x => decide (Udp.connectionOf x.2 = cid)) = [] := by
      refine List.eq_nil_iff_forall_not_mem.2 (fun y hy => ?_)
      have hin := h.inside _ (List.mem_append_right _ (List.mem_map_of_mem hy))
      dsimp only at hin
      omega
    unfold passages
    rw [hnone]
    rfl

/-- **A packet is sent when the budget counts it.** -/
theorem send (h : Tallied limit cid t base (s, ps)) {k : Nat} {c c' : Connection} (hc : s.connections.get k = some c)
    (hr : c'.udpOutgoingRate = (c.udpOutgoingRate.accept t limit).1) (hk64 : k < 2 ^ 64) :
    Tallied limit cid t base (s.setConnection k c', ps) ∧ ((c.udpOutgoingRate.accept t limit).2 = true →
      ∀ a secret kind n address payload,
        Tallied limit cid t base (s.setConnection k c', ps ++ [(a, encode secret kind k n address payload)])) := by
  by_cases hk : k = cid
  · subst hk
    have hs := h.spends c hc
    obtain ⟨hcharge, hcount⟩ := hs.accept
    have hpass := passages_accept hs
    have hget : (s.setConnection k c').connections.get k = some c' := IndexMap.get_insert_self ..
    refine ⟨⟨fun d hd => ?_, fun hn => ?_⟩, fun hok a secret kind n address payload => ⟨fun d hd => ?_, fun hn => ?_⟩⟩
    · rw [hget] at hd
      cases hd
      rw [hr, hpass]
      exact hcharge
    · rw [hget] at hn; cases hn
    · rw [hget] at hd
      cases hd
      rw [hr]
      have happ : passages k t (c.udpOutgoingRate.accept t limit).1.time
          (ps ++ [(a, encode secret kind k n address payload)]) =
          passages k t c.udpOutgoingRate.time ps ++ [⟨k, t, (c.udpOutgoingRate.accept t limit).1.time⟩] := by
        rw [passages_snoc, if_pos (connectionOf_encode _ _ _ _ _ hk64)]
        exact congrArg (· ++ _) hpass
      rw [happ, ← List.append_assoc]
      exact hcount hok _ rfl rfl
    · rw [hget] at hn; cases hn
  · -- another connection's packet
    have hget : (s.setConnection k c').connections.get cid = s.connections.get cid :=
      IndexMap.get_insert_ne _ _ (fun he => hk he.symm)
    refine ⟨⟨fun d hd => h.spends d (hget ▸ hd), fun hn => h.absent (hget ▸ hn)⟩,
      fun _ a secret kind n address payload => ⟨fun d hd => ?_, fun hn y hy => ?_⟩⟩
    · rw [passages_snoc, if_neg (by rw [connectionOf_encode _ _ _ _ _ hk64]; exact hk), List.append_nil]
      exact h.spends d (hget ▸ hd)
    · rcases List.mem_append.1 hy with hy | hy
      · exact h.absent (hget ▸ hn) y hy
      · rw [List.mem_singleton.1 hy, connectionOf_encode _ _ _ _ _ hk64]
        exact hk

end Tallied

/-- Connection numbers have 64 bits. -/
def Numbered (s : Server) : Prop := ∀ k c, s.connections.get k = some c → k < 2 ^ 64

omit [Extern] in
theorem Tuned.numbered {s t : Server} (h : s.Tuned t) (hs : s.Numbered) : t.Numbered := fun k c hc => by
  obtain ⟨c₀, _, _, _, hc₀, -⟩ := h.connections k c hc
  exact hs k c₀ hc₀

theorem answer_tallied {cid : Nat} {base : List Passage} {s : Server} {k : Nat} {c c₀ : Connection} (u : Udp.Session)
    (source : String) {t : Nat} (kind : UInt8) (payload : Bytes) (hc : s.connections.get k = some c₀)
    (hr : c.udpOutgoingRate = c₀.udpOutgoingRate) (hk : k < 2 ^ 64)
    (h : Tallied s.config.udpOutgoingPacketsPerSecond cid t base (s, [])) :
    Tallied s.config.udpOutgoingPacketsPerSecond cid t base (s.answer k c u source t kind payload) := by
  have hsend := fun (c' : Connection)
    (hr' : c'.udpOutgoingRate = (c₀.udpOutgoingRate.accept t s.config.udpOutgoingPacketsPerSecond).1) => h.send hc hr' hk
  unfold answer
  dsimp only
  split
  · rename_i u' packet hp
    split at hp
    · rename_i hok
      obtain ⟨n, -, rfl⟩ := packet_some hp
      exact (hsend _ (by rw [← hr])).2 (by rw [← hr]; exact hok) source _ _ _ _ _
    · cases hp
  · exact (hsend _ (by rw [← hr])).1

theorem deliver_tallied {limit cid : Nat} {base : List Passage} {t : Nat} (sender payload : Bytes)
    {x : Server × List (String × Bytes)} (recipient : Nat × Nat) (hl : x.1.config.udpOutgoingPacketsPerSecond = limit)
    (hn : x.1.Numbered) (h : Tallied limit cid t base x) :
    Tallied limit cid t base (deliver t sender payload x recipient) := by
  unfold deliver
  split
  · exact h
  rename_i c hc
  obtain ⟨hc, -⟩ := Option.filter_eq_some_iff.1 hc
  split
  · exact h
  split
  · exact h
  dsimp only
  rw [hl]
  split
  · rename_i u' packet hp
    split at hp
    · rename_i hok
      obtain ⟨n, -, rfl⟩ := packet_some hp
      exact (h.send hc rfl (hn _ c hc)).2 hok _ _ _ _ _ _
    · cases hp
  · exact (h.send hc rfl (hn _ c hc)).1

theorem deliveries_tallied {limit cid : Nat} {base : List Passage} {t : Nat} (sender payload : Bytes) :
    ∀ (rs : List (Nat × Nat)) (x : Server × List (String × Bytes)), x.1.config.udpOutgoingPacketsPerSecond = limit →
      x.1.Numbered → Tallied limit cid t base x → Tallied limit cid t base (rs.foldl (deliver t sender payload) x)
  | [], _, _, _, h => h
  | r :: rs, x, hl, hn, h => by
    have ht := deliver_tuned t sender payload x r
    refine deliveries_tallied sender payload rs _ ?_ (ht.numbered hn) (deliver_tallied sender payload r hl hn h)
    rw [show (deliver t sender payload x r).1.config = x.1.config from congrArg Core.config ht.core]
    exact hl

/-- **Every packet a datagram sends is counted by the budget of the connection it goes to.** -/
theorem datagram_tallied {cid : Nat} {base : List Passage} {s : Server} (b : Bytes) (source : String) {t : Nat}
    (challenge : Bytes) (hn : s.Numbered)
    (h : Tallied s.config.udpOutgoingPacketsPerSecond cid t base (s, [])) :
    (s.datagram b source t challenge).All (fun r =>
      Tallied s.config.udpOutgoingPacketsPerSecond cid t base (r.server, r.packets)) := by
  unfold datagram
  refine Out.all_ite (fun _ => h) (fun _ => ?_)
  dsimp only
  split
  · exact h
  rename_i c p r u hb
  have hc := (bearer_some hb).2.1
  refine Out.all_ite (fun _ => h) (fun _ => ?_)
  split
  · exact h
  refine all_mapOut (P := fun r : Reply =>
    Tallied s.config.udpOutgoingPacketsPerSecond cid t base (r.server, r.packets)) ?_ (fun _ h => h)
  refine Out.all_ite (fun _ => h.setConnection hc rfl) (fun _ => Out.all_ite (fun _ => ?_) (fun _ => ?_))
  · exact answer_tallied _ source 3 challenge hc rfl (hn _ c hc) h
  refine Out.all_ite (fun _ => ?_) (fun _ => ?_)
  · unfold confirm
    split
    · exact answer_tallied _ source 4 (payloadOf b) hc rfl (hn _ c hc) h
    · exact h.setConnection hc rfl
  · unfold relayPacket
    refine Out.all_ite (fun _ => Out.all_unwrap (fun sender _ => ?_)) (fun _ => h.setConnection hc rfl)
    exact deliveries_tallied sender (payloadOf b) _ (_, []) rfl
      (Tuned.numbered (.setConnection hc _ _ _) hn) (h.setConnection hc rfl)

/-! Runs. -/

omit [Extern] in
/-- The passages of one connection. -/
def through (cid : Nat) (l : List Passage) : List Passage := l.filter (fun y => decide (y.cid = cid))

omit [Extern] in
theorem through_append (cid : Nat) (l l' : List Passage) : through cid (l ++ l') = through cid l ++ through cid l' :=
  List.filter_append ..

omit [Extern] in
theorem through_eq_nil {cid : Nat} {l : List Passage} (h : ∀ y ∈ l, y.cid ≠ cid) : through cid l = [] :=
  List.filter_eq_nil_iff.2 (fun y hy => by simpa using h y hy)

omit [Extern] in
theorem through_emitted {cid : Nat} {c : Connection} {r : Reply} (t : Nat) (hc : r.server.connections.get cid = some c) :
    through cid (emitted t r) = passages cid t c.udpOutgoingRate.time r.packets := by
  have hw : r.server.outgoingWindow cid = c.udpOutgoingRate.time := by unfold outgoingWindow; rw [hc]; rfl
  unfold through emitted passages
  rw [List.filter_map]
  refine List.map_congr_left (fun y hy => ?_)
  have hy : Udp.connectionOf y.2 = cid := of_decide_eq_true (List.mem_filter.1 hy).2
  rw [hy, hw]

theorem mem_processed {s : Server} {b : Bytes} {source : String} {t : Nat} {challenge : Bytes} {r : Reply} {y : Passage}
    (h : y ∈ s.processed (.datagram b source t challenge) r) :
    y.cid = Udp.connectionOf b ∧ s.processes b t = true := by
  unfold processed at h
  dsimp only at h
  split at h
  · rename_i hp
    rw [List.mem_singleton.1 h]
    exact ⟨rfl, hp⟩
  · cases h

/-- **Every connection was started in the run.** -/
theorem Serves.born {config : Config} {store : Store} {push : Bool} {is : List Input} {log : List Udp.Event} {s : Server}
    (h : Serves (boot config store push) is log s) :
    ∀ k c, s.connections.get k = some c → k ∈ is.filterMap Input.number := by
  induction h with
  | refl => exact fun _ _ h => nomatch h
  | tail h hi ih =>
    rename_i is i log t r
    intro k c hk
    rw [List.filterMap_append]
    cases i with
    | command env cmd =>
      obtain ⟨t', ht', rfl⟩ := Option.map_eq_some_iff.1 hi
      by_cases hc : cmd = .connected k
      · subst hc
        exact List.mem_append_right _ (List.mem_singleton_self k)
      · obtain ⟨k₀, hk₀, -⟩ := step_unspent (h.base (boot_base config store push)) ht' hc hk
        exact List.mem_append_left _ (ih k k₀ hk₀)
    | datagram b source now challenge =>
      have ht : t.Tuned r.server := Out.all_of_state (P := fun r : Reply => t.Tuned r.server)
        (datagram_tuned t b source now challenge) hi
      obtain ⟨c₀, _, _, _, hc₀, -⟩ := ht.connections k c hk
      exact List.mem_append_left _ (ih k c₀ hc₀)

/-- What every run keeps of its traffic; it is `now`. -/
structure Budgeted (config : Config) (is : List Input) (x : Traffic) (s : Server) (now : Nat) : Prop where
  base : s.world.Base config
  tracked : ∀ y, y ∈ x.incoming ∨ y ∈ x.outgoing → y.cid ∈ is.filterMap Input.number
  incoming : ∀ cid, Windowed 1000 config.udpIncomingPacketsPerSecond Passage.time Passage.window (through cid x.incoming)
  outgoing : ∀ cid, Windowed 1000 config.udpOutgoingPacketsPerSecond Passage.time Passage.window (through cid x.outgoing)
  spends : ∀ cid c, s.connections.get cid = some c →
    Spends config.udpIncomingPacketsPerSecond (through cid x.incoming) c.udpIncomingRate now ∧
    Spends config.udpOutgoingPacketsPerSecond (through cid x.outgoing) c.udpOutgoingRate now

namespace Budgeted

variable {config : Config} {is : List Input} {x : Traffic} {s : Server} {now : Nat}

/-- A command: a new connection starts with budgets nobody spent from. -/
theorem command (h : Budgeted config is x s now) {env : Env} {c : Command} {t : Server} (hs : s.step env c = some t)
    (hnow : now ≤ env.now) (hnew : ((is ++ [Input.command env c]).filterMap Input.number).Nodup) :
    Budgeted config (is ++ [.command env c]) x t env.now := by
  have hmem : ∀ k, k ∈ is.filterMap Input.number → k ∈ (is ++ [Input.command env c]).filterMap Input.number := by
    intro k hk
    rw [List.filterMap_append]
    exact List.mem_append_left _ hk
  have hold : ∀ {k k'}, t.connections.get k = some k' → c ≠ .connected k → ∃ k₀, s.connections.get k = some k₀ ∧
      k'.udpIncomingRate = k₀.udpIncomingRate ∧ k'.udpOutgoingRate = k₀.udpOutgoingRate :=
    fun hk hn => step_unspent h.base hs hn hk
  refine ⟨h.base.chain (step_chain h.base hs), fun y hy => hmem _ (h.tracked y hy), h.incoming, h.outgoing,
    fun k k' hk => ?_⟩
  · by_cases hc : c = .connected k
    · subst hc
      rw [List.filterMap_append] at hnew
      have hfresh : k ∉ is.filterMap Input.number := fun hm =>
        (List.disjoint_of_nodup_append hnew) hm (List.mem_singleton_self k)
      have hnil : through k x.incoming = [] ∧ through k x.outgoing = [] :=
        ⟨through_eq_nil (fun y hy he => hfresh (he ▸ h.tracked y (.inl hy))),
          through_eq_nil (fun y hy he => hfresh (he ▸ h.tracked y (.inr hy)))⟩
      simp only [step] at hs
      split at hs
      · cases hs
      cases hs
      rw [connected, setConnection, IndexMap.get_insert_self] at hk
      cases hk
      rw [hnil.1, hnil.2]
      exact ⟨.nil (Nat.zero_le _), .nil (Nat.zero_le _)⟩
    · obtain ⟨k₀, hk₀, hin, hout⟩ := hold hk hc
      rw [hin, hout]
      exact ⟨(h.spends k k₀ hk₀).1.later hnow, (h.spends k k₀ hk₀).2.later hnow⟩

/-- The datagrams processed of a connection are those its budget counts. -/
theorem incoming_spends {b : Bytes} {source : String} {t : Nat} {challenge : Bytes} {r : Reply} {limit cid : Nat}
    {l : List Passage} (hconf : s.config.udpIncomingPacketsPerSecond = limit) (hadm : s.Admitted b t r.server)
    (h : ∀ c, s.connections.get cid = some c → Spends limit l c.udpIncomingRate t) {c' : Connection}
    (hc' : r.server.connections.get cid = some c') :
    Spends limit (l ++ through cid (s.processed (.datagram b source t challenge) r)) c'.udpIncomingRate t := by
  have hrate' : r.server.incomingRate cid = some c'.udpIncomingRate := by unfold incomingRate; rw [hc']; rfl
  rcases hadm cid with ⟨hsame, hno⟩ | ⟨rate, hcid, hrate, hnext, hp⟩
  · obtain ⟨c, hc, hin⟩ := Option.map_eq_some_iff.1 (hsame.symm.trans hrate')
    have hnone : through cid (s.processed (.datagram b source t challenge) r) = [] := through_eq_nil (fun y hy he => by
      obtain ⟨hy, hp⟩ := mem_processed hy
      rw [hno (he.symm.trans hy)] at hp
      cases hp)
    rw [hnone, List.append_nil, ← hin]
    exact h c hc
  · obtain ⟨c, hc, hin⟩ := Option.map_eq_some_iff.1 hrate
    have hs : Spends limit l rate t := hin ▸ h c hc
    rw [hconf] at hnext hp
    have hnew : c'.udpIncomingRate = (rate.accept t limit).1 := Option.some.inj (hrate'.symm.trans hnext)
    have hwin : r.server.incomingWindow cid = c'.udpIncomingRate.time := by unfold incomingWindow; rw [hc']; rfl
    rw [hnew]
    unfold processed
    dsimp only
    rw [← hcid]
    split
    · rename_i hok
      rw [show through cid [(⟨cid, t, r.server.incomingWindow cid⟩ : Passage)] = [⟨cid, t, r.server.incomingWindow cid⟩]
        from List.filter_cons_of_pos (decide_eq_true rfl)]
      exact (Spends.accept hs).2 (hp ▸ hok) _ rfl (hwin.trans (congrArg Rate.time hnew))
    · rw [show through cid [] = [] from rfl, List.append_nil]
      exact (Spends.accept hs).1

/-- What passes is of connections that are there, before and after. -/
theorem passes_there {b : Bytes} {source : String} {t : Nat} {challenge : Bytes} {r : Reply}
    (hadm : s.Admitted b t r.server) (habsent : ∀ cid, r.server.connections.get cid = none →
      ∀ y ∈ r.packets, Udp.connectionOf y.2 ≠ cid) {y : Passage}
    (hy : y ∈ s.processed (.datagram b source t challenge) r ∨ y ∈ emitted t r) :
    ∃ c, r.server.connections.get y.cid = some c := by
  rcases hy with hy | hy
  · obtain ⟨hcid, hp⟩ := mem_processed hy
    rcases hadm y.cid with ⟨-, hno⟩ | ⟨rate, -, -, hrate, -⟩
    · rw [hno hcid] at hp; cases hp
    · obtain ⟨c, hc, -⟩ := Option.map_eq_some_iff.1 hrate
      exact ⟨c, hc⟩
  · obtain ⟨z, hz, rfl⟩ := List.mem_map.1 hy
    cases hc : r.server.connections.get (Udp.connectionOf z.2) with
    | none => exact absurd rfl (habsent _ hc z hz)
    | some c => exact ⟨c, rfl⟩

theorem datagram (h : Budgeted config is x s now) {b : Bytes} {source : String} {t : Nat} {challenge : Bytes} {r : Reply}
    (hr : (s.datagram b source t challenge).state = some r) (hnow : now ≤ t) (hn : s.Numbered)
    (hborn : ∀ k c, s.connections.get k = some c → k ∈ is.filterMap Input.number) :
    Budgeted config (is ++ [.datagram b source t challenge])
      ⟨x.incoming ++ s.processed (.datagram b source t challenge) r, x.outgoing ++ emitted t r, x.signed ++ signed r⟩
      r.server t := by
  have hconf : s.config = config := h.base.config
  have hnum : (is ++ [Input.datagram b source t challenge]).filterMap Input.number = is.filterMap Input.number := by
    rw [List.filterMap_append]
    exact List.append_nil _
  have htuned : s.Tuned r.server := Out.all_of_state (P := fun r : Reply => s.Tuned r.server)
    (datagram_tuned s b source t challenge) hr
  have hadm := Out.all_of_state (datagram_admitted s b source t challenge) hr
  have htally : ∀ cid, Tallied config.udpOutgoingPacketsPerSecond cid t (through cid x.outgoing) (r.server, r.packets) := by
    intro cid
    rw [← hconf]
    refine Out.all_of_state (P := fun r : Reply => Tallied _ cid t _ (r.server, r.packets))
      (datagram_tallied b source challenge hn ⟨fun c hc => ?_, fun _ y hy => nomatch hy⟩) hr
    rw [hconf]
    show Spends _ (through cid x.outgoing ++ []) _ _
    rw [List.append_nil]
    exact (h.spends cid c hc).2.later hnow
  have hthere : ∀ y, y ∈ s.processed (.datagram b source t challenge) r ∨ y ∈ emitted t r →
      ∃ c, r.server.connections.get y.cid = some c := fun y hy =>
    passes_there hadm (fun cid hc => (htally cid).absent hc) hy
  have hborn' : ∀ k c, r.server.connections.get k = some c → k ∈ is.filterMap Input.number := fun k c hc => by
    obtain ⟨c₀, _, _, _, hc₀, -⟩ := htuned.connections k c hc
    exact hborn k c₀ hc₀
  have hspends : ∀ cid c', r.server.connections.get cid = some c' →
      Spends config.udpIncomingPacketsPerSecond
        (through cid (x.incoming ++ s.processed (.datagram b source t challenge) r)) c'.udpIncomingRate t ∧
      Spends config.udpOutgoingPacketsPerSecond (through cid (x.outgoing ++ emitted t r)) c'.udpOutgoingRate t := by
    intro cid c' hc'
    refine ⟨?_, ?_⟩
    · rw [through_append]
      exact incoming_spends (congrArg _ hconf) hadm (fun c hc => (h.spends cid c hc).1.later hnow) hc'
    · rw [through_append, through_emitted t hc']
      exact (htally cid).spends c' hc'
  -- a connection that is gone gets nothing
  have hgone : ∀ cid, r.server.connections.get cid = none →
      through cid (s.processed (.datagram b source t challenge) r) = [] ∧ through cid (emitted t r) = [] := by
    intro cid hnone
    refine ⟨through_eq_nil (fun y hy he => ?_), through_eq_nil (fun y hy he => ?_)⟩
    · obtain ⟨c, hc⟩ := hthere y (.inl hy)
      rw [he, hnone] at hc; cases hc
    · obtain ⟨c, hc⟩ := hthere y (.inr hy)
      rw [he, hnone] at hc; cases hc
  refine ⟨base_of_core htuned.core h.base, fun y hy => ?_, fun cid => ?_, fun cid => ?_, hspends⟩
  · rw [hnum]
    have hnew : y ∈ s.processed (.datagram b source t challenge) r ∨ y ∈ emitted t r →
        y.cid ∈ is.filterMap Input.number := fun hy => by
      obtain ⟨c, hc⟩ := hthere y hy
      exact hborn' _ c hc
    rcases hy with hy | hy
    · exact (List.mem_append.1 hy).elim (fun hy => h.tracked y (.inl hy)) (fun hy => hnew (.inl hy))
    · exact (List.mem_append.1 hy).elim (fun hy => h.tracked y (.inr hy)) (fun hy => hnew (.inr hy))
  · cases hc : r.server.connections.get cid with
    | none => rw [through_append, (hgone cid hc).1, List.append_nil]; exact h.incoming cid
    | some c => exact (hspends cid c hc).1.toWindowed
  · cases hc : r.server.connections.get cid with
    | none => rw [through_append, (hgone cid hc).2, List.append_nil]; exact h.outgoing cid
    | some c => exact (hspends cid c hc).2.toWindowed

/-- **Every run keeps them**, at times that do not go back and with numbers that are drawn once. -/
theorem run {store : Store} {push : Bool} {log : List Udp.Event} (h : Carries (boot config store push) is log x s)
    (htimes : (is.map Input.time).Pairwise (· ≤ ·)) (hnumbers : (is.filterMap Input.number).Nodup)
    (h64 : ∀ k ∈ is.filterMap Input.number, k < 2 ^ 64) :
    Budgeted config is x s (((is.map Input.time).getLast?).getD 0) := by
  induction h with
  | refl => exact ⟨boot_base config store push, nofun, fun _ => .nil, fun _ => .nil, nofun⟩
  | tail h hi ih =>
    rename_i is i log x t r
    rw [List.map_append, List.pairwise_append] at htimes
    rw [List.filterMap_append] at h64
    have ht := ih htimes.1 (List.Nodup.of_append_left (List.filterMap_append ▸ hnumbers))
      (fun k hk => h64 k (List.mem_append_left _ hk))
    have hlast : (((is ++ [i]).map Input.time).getLast?).getD 0 = i.time := by simp
    have hnow : ((is.map Input.time).getLast?).getD 0 ≤ i.time := by
      cases hl : (is.map Input.time).getLast? with
      | none => exact Nat.zero_le _
      | some n => exact htimes.2.2 n (List.mem_of_getLast? hl) _ (List.mem_singleton_self _)
    rw [hlast]
    cases i with
    | command env c =>
      obtain ⟨t', ht', rfl⟩ := Option.map_eq_some_iff.1 hi
      have hc := ht.command ht' hnow hnumbers
      have hx : (⟨x.incoming ++ t.processed (.command env c) ⟨t', [], t.opens t'⟩,
          x.outgoing ++ emitted env.now ⟨t', [], t.opens t'⟩, x.signed ++ signed ⟨t', [], t.opens t'⟩⟩ : Traffic) = x := by
        cases x
        simp [processed, emitted, signed]
      rw [show (Input.command env c).time = env.now from rfl, hx]
      exact hc
    | datagram b source now challenge =>
      have hborn := Serves.born h.serves
      exact ht.datagram hi hnow (fun k c hc => h64 k (List.mem_append_left _ (hborn k c hc))) hborn

end Budgeted

/-! Windows open in time. -/

omit [Extern] in
/-- A window stays open, or the next one opens once it is over. -/
def Reopens (t : Nat) (rate rate' : Rate) : Prop := rate'.time = rate.time ∨ (rate.time + 1000 ≤ t ∧ rate'.time = t)

omit [Extern] in
theorem Reopens.accept (rate : Rate) (t limit : Nat) : Reopens t rate (rate.accept t limit).1 :=
  (accept_time rate t limit).imp_right (fun ⟨h, he⟩ => ⟨by omega, he⟩)

/-- The windows of outgoing packets. -/
def Paced (t : Nat) (s s' : Server) : Prop := ∀ k c', s'.connections.get k = some c' →
  ∃ c, s.connections.get k = some c ∧ Reopens t c.udpOutgoingRate c'.udpOutgoingRate

omit [Extern] in
theorem Paced.refl (t : Nat) (s : Server) : Paced t s s := fun _ c hc => ⟨c, hc, .inl rfl⟩

omit [Extern] in
theorem Paced.trans {t : Nat} {s s' s'' : Server} (h : Paced t s s') (h' : Paced t s' s'') : Paced t s s'' :=
  fun k c hc => by
    obtain ⟨c₁, hc₁, he₁⟩ := h' k c hc
    obtain ⟨c₂, hc₂, he₂⟩ := h k c₁ hc₁
    refine ⟨c₂, hc₂, ?_⟩
    unfold Reopens at *
    omega

omit [Extern] in
theorem Paced.setConnection {t : Nat} {s : Server} {cid : Nat} {c c' : Connection} (hc : s.connections.get cid = some c)
    (h : Reopens t c.udpOutgoingRate c'.udpOutgoingRate) : Paced t s (s.setConnection cid c') := fun k d hd => by
  rw [Server.setConnection, IndexMap.get_insert] at hd
  split at hd
  · rename_i hk
    cases hd
    exact ⟨c, hk ▸ hc, h⟩
  · exact ⟨d, hd, .inl rfl⟩

theorem answer_paced {s : Server} {cid : Nat} {c c₀ : Connection} (hc : s.connections.get cid = some c₀)
    (hr : c.udpOutgoingRate = c₀.udpOutgoingRate) (u : Udp.Session) (source : String) (t : Nat) (kind : UInt8)
    (payload : Bytes) : Paced t s (s.answer cid c u source t kind payload).1 := by
  unfold answer
  dsimp only
  split <;> exact .setConnection hc (hr ▸ .accept ..)

theorem deliver_paced (t : Nat) (sender payload : Bytes) (x : Server × List (String × Bytes)) (recipient : Nat × Nat) :
    Paced t x.1 (deliver t sender payload x recipient).1 := by
  unfold deliver
  split
  · exact .refl t _
  rename_i c hc
  obtain ⟨hc, -⟩ := Option.filter_eq_some_iff.1 hc
  split
  · exact .refl t _
  split
  · exact .refl t _
  dsimp only
  split <;> exact .setConnection hc (.accept ..)

theorem deliveries_paced (t : Nat) (sender payload : Bytes) : ∀ (rs : List (Nat × Nat))
    (x : Server × List (String × Bytes)), Paced t x.1 (rs.foldl (deliver t sender payload) x).1
  | [], _ => .refl t _
  | r :: rs, x => (deliver_paced t sender payload x r).trans (deliveries_paced t sender payload rs _)

theorem datagram_paced (s : Server) (b : Bytes) (source : String) (t : Nat) (challenge : Bytes) :
    (s.datagram b source t challenge).All (fun r => Paced t s r.server) := by
  unfold datagram
  refine Out.all_ite (fun _ => .refl t s) (fun _ => ?_)
  dsimp only
  split
  · exact .refl t s
  rename_i c p r u hb
  have hc := (bearer_some hb).2.1
  refine Out.all_ite (fun _ => .refl t s) (fun _ => ?_)
  split
  · exact .refl t s
  refine all_mapOut (P := fun r : Reply => Paced t s r.server) ?_ (fun _ h => h)
  refine Out.all_ite (fun _ => .setConnection hc (.inl rfl)) (fun _ => Out.all_ite (fun _ => ?_) (fun _ => ?_))
  · exact answer_paced hc (by rfl) _ source t 3 challenge
  refine Out.all_ite (fun _ => ?_) (fun _ => ?_)
  · unfold confirm
    split
    · exact answer_paced hc (by rfl) _ source t 4 (payloadOf b)
    · exact .setConnection hc (.inl rfl)
  · unfold relayPacket
    refine Out.all_ite (fun _ => Out.all_unwrap (fun sender _ => ?_)) (fun _ => .setConnection hc (.inl rfl))
    exact Paced.trans (.setConnection hc (.inl (by rfl))) (deliveries_paced t sender (payloadOf b) _ (_, []))

/-- **Budgets survive rotations, closes and moves between rooms.**  In every run at times that do not go back: the
datagrams processed of a connection, and the packets sent to it, lie in windows of one second that do not overlap, at most
the limit in each and at most twice the limit in any interval of a second; a datagram that the budget does not let through
sends nothing and does nothing but spend its number; a datagram opens a window only when the last one is over; and no
command changes a connection's budgets. -/
theorem udp_budgets_hold {config : Config} {store : Store} {push : Bool} {is : List Input} {log : List Udp.Event}
    {x : Traffic} {s : Server} (h : Carries (boot config store push) is log x s)
    (htimes : (is.map Input.time).Pairwise (· ≤ ·)) (hnumbers : (is.filterMap Input.number).Nodup)
    (h64 : ∀ k ∈ is.filterMap Input.number, k < 2 ^ 64) :
    (∀ cid, Windowed 1000 config.udpIncomingPacketsPerSecond Passage.time Passage.window (through cid x.incoming) ∧
      Windowed 1000 config.udpOutgoingPacketsPerSecond Passage.time Passage.window (through cid x.outgoing) ∧
      ∀ a, (through cid x.incoming).countP (fun y => decide (a ≤ y.time ∧ y.time ≤ a + 1000)) ≤
          2 * config.udpIncomingPacketsPerSecond ∧
        (through cid x.outgoing).countP (fun y => decide (a ≤ y.time ∧ y.time ≤ a + 1000)) ≤
          2 * config.udpOutgoingPacketsPerSecond) ∧
    (∀ b source t challenge r, (s.datagram b source t challenge).state = some r →
      (s.processes b t = false → r.packets = [] ∧ ∀ e ∈ r.events, ∃ cid key n, e = .spent cid key n) ∧
      ∀ cid c', r.server.connections.get cid = some c' → ∃ c, s.connections.get cid = some c ∧
        Reopens t c.udpIncomingRate c'.udpIncomingRate ∧ Reopens t c.udpOutgoingRate c'.udpOutgoingRate) ∧
    ∀ env c t, s.step env c = some t → ∀ cid, c ≠ .connected cid → ∀ k', t.connections.get cid = some k' →
      ∃ k, s.connections.get cid = some k ∧ k'.udpIncomingRate = k.udpIncomingRate ∧
        k'.udpOutgoingRate = k.udpOutgoingRate := by
  have hbud := Budgeted.run h htimes hnumbers h64
  refine ⟨fun cid => ⟨hbud.incoming cid, hbud.outgoing cid, fun a => ⟨(hbud.incoming cid).interval a,
    (hbud.outgoing cid).interval a⟩⟩, fun b source t challenge r hr => ⟨fun hp => ?_, fun cid c' hc' => ?_⟩,
    fun env c t ht cid hn k' hk' => step_unspent hbud.base ht hn hk'⟩
  · exact Out.all_of_state (P := fun r : Reply => r.packets = [] ∧ ∀ e ∈ r.events, ∃ cid key n, e = .spent cid key n)
      (unprocessed hp source challenge) hr
  · obtain ⟨c, hc, hout⟩ := Out.all_of_state (datagram_paced s b source t challenge) hr cid c' hc'
    refine ⟨c, hc, ?_, hout⟩
    have hrate : s.incomingRate cid = some c.udpIncomingRate := by unfold incomingRate; rw [hc]; rfl
    have hrate' : r.server.incomingRate cid = some c'.udpIncomingRate := by unfold incomingRate; rw [hc']; rfl
    rcases Out.all_of_state (datagram_admitted s b source t challenge) hr cid with ⟨hsame, -⟩ | ⟨rate, -, h₁, h₂, -⟩
    · rw [hrate, hrate'] at hsame
      exact .inl (congrArg Rate.time (Option.some.inj hsame))
    · rw [hrate] at h₁
      rw [hrate'] at h₂
      cases h₁
      rw [Option.some.inj h₂]
      exact .accept ..

/-- Serve inputs one after the other, with their traffic. -/
def carryAll : List Input → List Udp.Event → Traffic → Server → Option (List Udp.Event × Traffic × Server)
  | [], log, x, s => some (log, x, s)
  | i :: is, log, x, s => (s.serve i).bind (fun r => carryAll is (log ++ r.events)
      ⟨x.incoming ++ s.processed i r, x.outgoing ++ emitted i.time r, x.signed ++ signed r⟩ r.server)

theorem carryAll_carries {b : Server} : ∀ {is js : List Input} {log log' : List Udp.Event} {x x' : Traffic} {s t : Server},
    Carries b js log x s → carryAll is log x s = some (log', x', t) → Carries b (js ++ is) log' x' t
  | [], js, log, log', x, x', s, t, h, he => by cases he; rw [List.append_nil]; exact h
  | i :: is, js, log, log', x, x', s, t, h, he => by
    obtain ⟨r, hr, he⟩ := Option.bind_eq_some_iff.1 he
    have := carryAll_carries (h.tail hr) he
    rw [List.append_assoc] at this
    exact this

end Server

namespace Trace

open Server

/-- A proof and a rotation of the key between greetings. -/
def rotating : List Input :=
  sending [packet 0 1 (List.replicate 16 0), packet 1 2 (List.replicate 16 5)] ++
    [.command (Env.plain 3) (Command.tells 1 openUdp),
      .datagram (packet 0 1 (List.replicate 16 0)) "192.0.2.1:9" 1500 (List.replicate 16 6)]

end Trace

namespace Server

theorem udp_budgets_hold_rotated :
    letI := Trace.tagging [Trace.signUp, Trace.createRoom, Trace.openUdp]
    ∃ log x s, Carries (boot Trace.withUdp .empty false) Trace.rotating log x s ∧
      x.outgoing = [⟨1, 2, 0⟩, ⟨1, 2, 0⟩, ⟨1, 1500, 1500⟩] ∧
      (∀ w, (through 1 x.outgoing).countP (fun y => decide (y.window = w)) ≤ 120) := by
  let _ := Trace.tagging [Trace.signUp, Trace.createRoom, Trace.openUdp]
  have h : (carryAll Trace.rotating [] ⟨[], [], []⟩ (boot Trace.withUdp .empty false)).any
      (fun x => decide (x.2.1.outgoing = [⟨1, 2, 0⟩, ⟨1, 2, 0⟩, ⟨1, 1500, 1500⟩])) = true := by
    decide +kernel
  obtain ⟨⟨log, x, s⟩, hs, hx⟩ := (Option.any_eq_true _ _).1 h
  have hrun := carryAll_carries .refl hs
  obtain ⟨hwin, -, -⟩ := udp_budgets_hold hrun (by decide) (by decide) (by decide)
  exact ⟨log, x, s, hrun, of_decide_eq_true hx, (hwin 1).2.1.bounded⟩

end Server
end Relay
