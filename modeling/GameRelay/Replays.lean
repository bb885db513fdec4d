import GameRelay.Datagram
import GameRelay.Trace
import GameRelay.Ledger
/-!
# Replays — every authentic datagram counts once

`Received` says all that a datagram can do.  A run of commands and datagrams (`Serves`) keeps a log of what it did to the
sessions; `Sessions` is what every run keeps of the log: a session's window covers the sequence numbers spent in it, so
that none is spent twice.
-/
namespace Relay

open Udp

namespace Udp

/-! The window. -/

/-- The window will not accept this sequence number again. -/
def Replay.Covers (r : Replay) (n : Nat) : Prop :=
  n ≤ r.highest ∧ (r.highest - n < 64 → r.bits.testBit (r.highest - n) = true)

theorem Replay.Covers.refused {r : Replay} {n : Nat} (h : r.Covers n) : r.accept n = none := by
  unfold Replay.accept
  by_cases hn : n = 0
  · rw [if_pos hn]
  rw [if_neg hn, if_neg (Nat.not_lt_of_le h.1)]
  refine if_pos ?_
  by_cases hd : r.highest - n < 64
  · exact .inr (h.2 hd)
  · exact .inl (Nat.le_of_not_lt hd)

/-- **What was covered stays covered, and the accepted number is covered too.** -/
theorem Replay.accept_covers {r r' : Replay} {n : Nat} (h : r.accept n = some r') :
    r'.Covers n ∧ ∀ m, r.Covers m → r'.Covers m := by
  unfold Replay.accept at h
  split at h
  · cases h
  split at h
  · rename_i hlt
    cases h
    refine ⟨⟨Nat.le_refl n, fun _ => ?_⟩, fun m hm => ⟨Nat.le_of_lt (Nat.lt_of_le_of_lt hm.1 hlt), fun hd => ?_⟩⟩
    · show Nat.testBit _ (n - n) = true
      rw [Nat.sub_self]
      split
      · exact Nat.testBit_one_zero
      · rw [Nat.testBit_or, Nat.testBit_one_zero, Bool.or_true]
    · change n - m < 64 at hd
      have hmh := hm.1
      show Nat.testBit _ (n - m) = true
      -- an older number moved by the shift, and still lies inside the window
      rw [if_neg (by omega), Nat.testBit_or, Nat.testBit_mod_two_pow, Nat.testBit_shiftLeft]
      have hbit := hm.2 (by omega)
      rw [show n - m - (n - r.highest) = r.highest - m by omega, hbit]
      simp only [ge_iff_le, Bool.and_true, Bool.or_eq_true, Bool.and_eq_true, decide_eq_true_eq]
      exact .inl ⟨hd, by omega⟩
  · rename_i hle
    dsimp only at h
    split at h
    · cases h
    · cases h
      refine ⟨⟨Nat.le_of_not_lt hle, fun _ => ?_⟩, fun m hm => ⟨hm.1, fun hd => ?_⟩⟩
      · show Nat.testBit (r.bits ||| 2 ^ (r.highest - n)) (r.highest - n) = true
        rw [Nat.testBit_or, Nat.testBit_two_pow_self, Bool.or_true]
      · show Nat.testBit (r.bits ||| 2 ^ (r.highest - n)) (r.highest - m) = true
        rw [Nat.testBit_or, hm.2 hd, Bool.true_or]

end Udp

namespace Server

/-- The datagram session of a connection. -/
def udpOf (s : Server) (cid : Nat) : Option Udp.Session := (s.connections.get cid).bind (·.udp)

/-- The session named by the datagram is its account's, signed it, and has not seen its number. -/
structure Admits [Extern] (s : Server) (b : Bytes) (u : Udp.Session) (replay : Replay) : Prop where
  session : s.udpOf (Udp.connectionOf b) = some u
  current : ∀ c id p, s.connections.get (Udp.connectionOf b) = some c → c.player = some id → s.players.get id = some p →
    u.version = p.version
  authentic : authentic u.secret b = true
  fresh : u.replay.accept (sequenceOf b) = some replay
  shaped : shaped s.config b = true

/-- The session `v` of the connection is in place up to its packet counter, and so are all others. -/
structure Touches (s s' : Server) (cid : Nat) (v : Udp.Session) : Prop where
  core : s'.toCore = s.toCore
  own : ∃ n, s'.udpOf cid = some { v with outgoing := n }
  others : ∀ x, x ≠ cid → s'.udpOf x = s.udpOf x ∨ ∃ u n, s.udpOf x = some u ∧ s'.udpOf x = some { u with outgoing := n }

/-- **All that a datagram can do.** -/
inductive Received [Extern] (s : Server) (b : Bytes) (source : String) (t : Nat) (challenge : Bytes) : Reply → Prop
  | ignored : Received s b source t challenge ⟨s, [], []⟩
  | dropped {u : Udp.Session} {replay : Replay} {s' : Server} (ha : s.Admits b u replay)
      (ht : s.Touches s' (Udp.connectionOf b) { u with replay := replay }) :
      Received s b source t challenge ⟨s', [], [.spent (Udp.connectionOf b) u.secret (sequenceOf b)]⟩
  | challenged {u : Udp.Session} {replay : Replay} {s' : Server} {packets : List (String × Bytes)} (ha : s.Admits b u replay)
      (hk : kindOf b = 0)
      (ht : s.Touches s' (Udp.connectionOf b) { u with replay := replay, challenge := some (source, challenge, t) })
      (hp : packets = [] ∨ ∃ n, packets = [(source, encode u.secret 3 (Udp.connectionOf b) n nilAddress challenge)]) :
      Received s b source t challenge ⟨s', packets, [.spent (Udp.connectionOf b) u.secret (sequenceOf b),
        .challenged (Udp.connectionOf b) u.secret source challenge t]⟩
  | proven {u : Udp.Session} {replay : Replay} {s' : Server} {packets : List (String × Bytes)} (ha : s.Admits b u replay)
      (hk : kindOf b = 1) (hc : proves u source t s.config.udpChallengeTtlMs (payloadOf b) = true)
      (ht : s.Touches s' (Udp.connectionOf b) { u with replay := replay, challenge := none, endpoint := some (source, t) })
      (hp : packets = [] ∨ ∃ n, packets = [(source, encode u.secret 4 (Udp.connectionOf b) n nilAddress (payloadOf b))]) :
      Received s b source t challenge ⟨s', packets, [.spent (Udp.connectionOf b) u.secret (sequenceOf b),
        .proven (Udp.connectionOf b) u.secret source (payloadOf b) t]⟩
  | refreshed {u : Udp.Session} {replay : Replay} {s' : Server} {packets : List (String × Bytes)} (ha : s.Admits b u replay)
      (hk : kindOf b = 2)
      (he : u.endpoint.any (fun x => decide (x.1 = source ∧ t - x.2 ≤ s.config.udpEndpointTtlMs)) = true)
      (ht : s.Touches s' (Udp.connectionOf b) { u with replay := replay, endpoint := some (source, t) })
      (hp : ∀ x ∈ packets, ∃ cid v, s'.udpOf cid = some v ∧ reachable v t s.config.udpEndpointTtlMs = some x.1) :
      Received s b source t challenge ⟨s', packets, [.spent (Udp.connectionOf b) u.secret (sequenceOf b),
        .refreshed (Udp.connectionOf b) u.secret source t]⟩

theorem udpOf_setConnection (s : Server) (cid : Nat) (c : Connection) (x : Nat) :
    (s.setConnection cid c).udpOf x = if x = cid then c.udp else s.udpOf x := by
  unfold udpOf setConnection
  dsimp only
  rw [IndexMap.get_insert]
  split <;> rfl

/-- Setting the named connection's session. -/
theorem touches_setConnection (s : Server) (cid : Nat) {c : Connection} {v : Udp.Session} {n : Nat}
    (hc : c.udp = some { v with outgoing := n }) : s.Touches (s.setConnection cid c) cid v := by
  refine ⟨rfl, ⟨n, ?_⟩, fun x hx => .inl ?_⟩
  · rw [udpOf_setConnection, if_pos rfl, hc]
  · rw [udpOf_setConnection, if_neg hx]

/-- The sessions of two states are the same up to their packet counters. -/
structure Counted (s s' : Server) : Prop where
  core : s'.toCore = s.toCore
  sessions : ∀ x, s'.udpOf x = s.udpOf x ∨ ∃ u n, s.udpOf x = some u ∧ s'.udpOf x = some { u with outgoing := n }

theorem Counted.refl (s : Server) : s.Counted s := ⟨rfl, fun _ => .inl rfl⟩

theorem Counted.trans {s t u : Server} (h : s.Counted t) (h' : t.Counted u) : s.Counted u := by
  refine ⟨h'.core.trans h.core, fun x => ?_⟩
  rcases h.sessions x with hx | ⟨v, n, hv, hn⟩
  · rw [← hx]; exact h'.sessions x
  · rcases h'.sessions x with hy | ⟨w, m, hw, hm⟩
    · exact .inr ⟨v, n, hv, by rw [hy, hn]⟩
    · rw [hn] at hw
      cases hw
      exact .inr ⟨v, m, hv, hm⟩

theorem Touches.counted {s s' s'' : Server} {cid : Nat} {v : Udp.Session} (h : s.Touches s' cid v) (h' : s'.Counted s'') :
    s.Touches s'' cid v := by
  refine ⟨h'.core.trans h.core, ?_, fun x hx => ?_⟩
  · obtain ⟨n, hn⟩ := h.own
    rcases h'.sessions cid with hs | ⟨u, m, hu, hm⟩
    · exact ⟨n, hs.trans hn⟩
    · rw [hn] at hu
      cases hu
      exact ⟨m, hm⟩
  · rcases h.others x hx with hs | ⟨u, n, hu, hn⟩
    · rw [← hs]; exact h'.sessions x
    · rcases h'.sessions x with hs' | ⟨w, m, hw, hm⟩
      · exact .inr ⟨u, n, hu, by rw [hs', hn]⟩
      · rw [hn] at hw
        cases hw
        exact .inr ⟨u, m, hu, hm⟩

/-- Setting a connection to one whose session differs in its packet counter only. -/
theorem counted_setConnection {s : Server} {cid : Nat} {c c' : Connection} (hc : s.connections.get cid = some c)
    (hu : c'.udp = c.udp ∨ ∃ u n, c.udp = some u ∧ c'.udp = some { u with outgoing := n }) :
    s.Counted (s.setConnection cid c') := by
  have hs : s.udpOf cid = c.udp := by unfold udpOf; rw [hc]; rfl
  refine ⟨rfl, fun x => ?_⟩
  rw [udpOf_setConnection]
  split
  · rename_i hx
    rw [hx, hs]
    exact hu
  · exact .inl rfl

variable [Extern]

/-- A packet changes the counter only. -/
theorem packet_some {u u' : Udp.Session} {cid : Nat} {kind : UInt8} {sender payload packet : Bytes}
    (h : u.packet cid kind sender payload = some (u', packet)) : ∃ n, u' = { u with outgoing := n } ∧
      packet = encode u.secret kind cid n sender payload := by
  unfold Udp.Session.packet at h
  split at h
  · cases h; exact ⟨_, rfl, rfl⟩
  · cases h

theorem answer_touches (s : Server) (cid : Nat) (c : Connection) (u : Udp.Session) (source : String) (t : Nat) (kind : UInt8)
    (payload : Bytes) : s.Touches (s.answer cid c u source t kind payload).1 cid u ∧
      ((s.answer cid c u source t kind payload).2 = [] ∨
        ∃ n, (s.answer cid c u source t kind payload).2 = [(source, encode u.secret kind cid n nilAddress payload)]) := by
  unfold answer
  dsimp only
  split
  · rename_i u' packet hp
    split at hp
    · obtain ⟨n, rfl, rfl⟩ := packet_some hp
      exact ⟨touches_setConnection s cid rfl, .inr ⟨n, rfl⟩⟩
    · cases hp
  · exact ⟨touches_setConnection s cid (n := u.outgoing) rfl, .inl rfl⟩

/-- **A delivery goes to a reachable endpoint** and changes a packet counter only. -/
theorem deliver_counted (t : Nat) (sender payload : Bytes) (x : Server × List (String × Bytes)) (recipient : Nat × Nat) :
    x.1.Counted (deliver t sender payload x recipient).1 ∧
      ∀ y ∈ (deliver t sender payload x recipient).2, y ∈ x.2 ∨ ∃ cid v,
        (deliver t sender payload x recipient).1.udpOf cid = some v ∧
          reachable v t x.1.config.udpEndpointTtlMs = some y.1 := by
  unfold deliver
  split
  · exact ⟨.refl _, fun y hy => .inl hy⟩
  rename_i c hc
  obtain ⟨hc, -⟩ := Option.filter_eq_some_iff.1 hc
  split
  · exact ⟨.refl _, fun y hy => .inl hy⟩
  rename_i u hu
  obtain ⟨hu, -⟩ := Option.filter_eq_some_iff.1 hu
  split
  · exact ⟨.refl _, fun y hy => .inl hy⟩
  rename_i address haddr
  dsimp only
  split
  · rename_i u' packet hp
    split at hp
    · obtain ⟨n, rfl, -⟩ := packet_some hp
      refine ⟨counted_setConnection hc (.inr ⟨u, n, hu, rfl⟩), fun y hy => ?_⟩
      rcases List.mem_append.1 hy with hy | hy
      · exact .inl hy
      · rw [List.mem_singleton.1 hy]
        refine .inr ⟨recipient.1, { u with outgoing := n }, ?_, haddr⟩
        rw [udpOf_setConnection, if_pos rfl]
    · cases hp
  · exact ⟨counted_setConnection hc (.inl rfl), fun y hy => .inl hy⟩

theorem deliveries_counted (t : Nat) (sender payload : Bytes) : ∀ (rs : List (Nat × Nat))
    (x : Server × List (String × Bytes)), x.1.Counted (rs.foldl (deliver t sender payload) x).1 ∧
      ∀ y ∈ (rs.foldl (deliver t sender payload) x).2, y ∈ x.2 ∨ ∃ cid v,
        (rs.foldl (deliver t sender payload) x).1.udpOf cid = some v ∧
          reachable v t x.1.config.udpEndpointTtlMs = some y.1
  | [], x => ⟨.refl _, fun y hy => .inl hy⟩
  | r :: rs, x => by
    obtain ⟨h₁, hp₁⟩ := deliver_counted t sender payload x r
    obtain ⟨h₂, hp₂⟩ := deliveries_counted t sender payload rs (deliver t sender payload x r)
    rw [List.foldl_cons]
    refine ⟨h₁.trans h₂, fun y hy => ?_⟩
    have hconf : (deliver t sender payload x r).1.config = x.1.config := congrArg Core.config h₁.core
    rcases hp₂ y hy with hy' | ⟨cid, v, hv, hr⟩
    · rcases hp₁ y hy' with hy'' | ⟨cid, v, hv, hr⟩
      · exact .inl hy''
      · -- the session stays up to its counter
        rcases h₂.sessions cid with hs | ⟨w, n, hw, hn⟩
        · exact .inr ⟨cid, v, hs.trans hv, hr⟩
        · rw [hv] at hw
          cases hw
          exact .inr ⟨cid, _, hn, hr⟩
    · exact .inr ⟨cid, v, hv, hconf ▸ hr⟩

/-- **A datagram does one of these things.** -/
theorem datagram_received (s : Server) (b : Bytes) (source : String) (t : Nat) (challenge : Bytes) :
    (s.datagram b source t challenge).All (Received s b source t challenge) := by
  unfold datagram
  refine Out.all_ite (fun _ => .ignored) (fun hshape => ?_)
  dsimp only
  split
  · exact .ignored
  rename_i c p r u hb
  refine Out.all_ite (fun _ => .ignored) (fun hauth => ?_)
  split
  · exact .ignored
  rename_i replay hreplay
  have hadmit : s.Admits b u replay := by
    unfold bearer at hb
    obtain ⟨c', hc', hb⟩ := Option.bind_eq_some_iff.1 hb
    obtain ⟨hc', -⟩ := Option.filter_eq_some_iff.1 hc'
    obtain ⟨p', hp', hb⟩ := Option.bind_eq_some_iff.1 hb
    obtain ⟨hp', -⟩ := Option.filter_eq_some_iff.1 hp'
    obtain ⟨r', -, hb⟩ := Option.bind_eq_some_iff.1 hb
    obtain ⟨u', hu', he⟩ := Option.map_eq_some_iff.1 hb
    cases he
    obtain ⟨hu', hver⟩ := Option.filter_eq_some_iff.1 hu'
    refine ⟨by unfold udpOf; rw [hc']; exact hu', fun c₀ id p₀ hc₀ hid hp₀ => ?_, eq_true_of_ne_false hauth, hreplay,
      eq_true_of_ne_false hshape⟩
    rw [hc'] at hc₀
    cases hc₀
    rw [hid] at hp'
    have he := hp₀.symm.trans hp'
    cases he
    exact of_decide_eq_true hver
  refine all_mapOut (P := fun x : Reply => Received s b source t challenge
    { x with events := .spent (Udp.connectionOf b) u.secret (sequenceOf b) :: x.events }) ?_ (fun _ h => h)
  have hkinds : kindOf b = 0 ∨ kindOf b = 1 ∨ kindOf b = 2 := by
    have hs := hadmit.shaped
    unfold Udp.shaped at hs
    simp only [Bool.and_eq_true, decide_eq_true_eq] at hs
    have hk : kindOf b ≤ 2 := hs.1.1.2
    have hk' : (kindOf b).toNat ≤ 2 := hk
    have hcases : (kindOf b).toNat = 0 ∨ (kindOf b).toNat = 1 ∨ (kindOf b).toNat = 2 := by omega
    rcases hcases with h | h | h
    · exact .inl (UInt8.toNat_inj.1 h)
    · exact .inr (.inl (UInt8.toNat_inj.1 h))
    · exact .inr (.inr (UInt8.toNat_inj.1 h))
  refine Out.all_ite (fun _ => .dropped hadmit (touches_setConnection s _ (n := u.outgoing) rfl)) (fun _ => ?_)
  refine Out.all_ite (fun hk => ?_) (fun hk0 => ?_)
  · obtain ⟨ht, hp⟩ := answer_touches s (Udp.connectionOf b) { c with
      udp := some { u with replay := replay }
      udpIncomingRate := (c.udpIncomingRate.accept t s.config.udpIncomingPacketsPerSecond).1 }
      { u with replay := replay, challenge := some (source, challenge, t) } source t 3 challenge
    exact .challenged hadmit hk ht hp
  refine Out.all_ite (fun hk => ?_) (fun hk1 => ?_)
  · unfold confirm
    split
    · rename_i hc
      obtain ⟨ht, hp⟩ := answer_touches s (Udp.connectionOf b) { c with
        udp := some { u with replay := replay }
        udpIncomingRate := (c.udpIncomingRate.accept t s.config.udpIncomingPacketsPerSecond).1 }
        { u with replay := replay, challenge := none, endpoint := some (source, t) } source t 4 (payloadOf b)
      exact .proven hadmit hk hc ht hp
    · exact .dropped hadmit (touches_setConnection s _ (n := u.outgoing) rfl)
  have hk : kindOf b = 2 := by
    rcases hkinds with h | h | h
    · exact absurd h hk0
    · exact absurd h hk1
    · exact h
  unfold relayPacket
  refine Out.all_ite (fun he => Out.all_unwrap (fun sender _ => ?_))
    (fun _ => .dropped hadmit (touches_setConnection s _ (n := u.outgoing) rfl))
  generalize hs₁ : s.setConnection (Udp.connectionOf b) _ = s₁
  have ht : s.Touches s₁ (Udp.connectionOf b) { u with replay := replay, endpoint := some (source, t) } := by
    rw [← hs₁]
    exact touches_setConnection s _ (n := u.outgoing) rfl
  obtain ⟨hcount, hpackets⟩ := deliveries_counted t sender (payloadOf b) (s₁.recipients p r (targetOf b)) (s₁, [])
  refine .refreshed hadmit hk he (ht.counted hcount) (fun y hy => ?_)
  rcases hpackets y hy with hy | ⟨cid, v, hv, hr⟩
  · cases hy
  · exact ⟨cid, v, hv, by rw [show s₁.config = s.config from congrArg Core.config ht.core] at hr; exact hr⟩

end Server

/-! Sessions come and go with the text frames that open and close them. -/

/-- A session stays, ends, or a new one opens. -/
def Turned (a b : Option Udp.Session) : Prop := b = a ∨ b = none ∨ ∃ key version, b = some (Udp.Session.new key version)

theorem Turned.trans {a b c : Option Udp.Session} (h : Turned a b) (h' : Turned b c) : Turned a c := by
  rcases h' with rfl | h' | h'
  · exact h
  · exact .inr (.inl h')
  · exact .inr (.inr h')

def World.udpOf (w : World) (cid : Nat) : Option Udp.Session := (w.links cid).bind (·.udp)

theorem Kept.udp {l l' : Nat → Option Link} (h : Kept l l') (cid : Nat) : (l' cid).bind (·.udp) = (l cid).bind (·.udp) := by
  rcases h cid with ⟨h₁, h₂⟩ | ⟨a, b, ha, hb, hk⟩
  · rw [h₁, h₂]
  · rw [ha, hb]; exact hk.udp

theorem closeLink_udp (links : Nat → Option Link) (old : Option Nat) (cid : Nat) :
    (closeLink links old cid).bind (·.udp) = (links cid).bind (·.udp) := by
  unfold closeLink
  split
  · cases links cid <;> rfl
  · rfl

theorem Effect.udp [Extern] {a : Act} {w w' : World} (h : Effect a w w') (cid : Nat) :
    Turned (w.udpOf cid) (w'.udpOf cid) := by
  have left : ∀ {p : String} {d : Bool} {w₀ : World}, w₀.Left p d w' → Turned (w₀.udpOf cid) (w'.udpOf cid) := by
    intro p d w₀ h
    unfold World.udpOf
    rw [h.frame.2.2]
    exact .inl rfl
  -- one link changes
  have set : ∀ {k : Nat} {l : Nat → Option Link} {o : Option Link}, Turned ((l k).bind (·.udp)) (o.bind (·.udp)) →
      Turned ((l cid).bind (·.udp)) ((Function.update l k o cid).bind (·.udp)) := by
    intro k l o h
    rw [Function.update_apply]
    split
    · rename_i hk; rw [hk]; exact h
    · exact .inl rfl
  cases h with
  | connected h => exact set (.inr (.inl rfl))
  | unlinked hl hq => exact set (.inr (.inl rfl))
  | gone hl hp hq hc h => exact Turned.trans (set (.inr (.inl rfl))) (left h)
  | bound hl hp hq =>
    rename_i cid' id q l
    have hc : ((closeLink w.links q.connection cid').bind (·.udp)) = l.udp := by rw [closeLink_udp, hl]; rfl
    have := set (k := cid') (l := closeLink w.links q.connection) (o := some { l with player := some id }) (.inl hc.symm)
    rw [closeLink_udp] at this
    exact this
  | recalled hl hp => exact set (.inl (by rw [hl]; rfl))
  | rekeyed hl hu =>
    rcases hu with rfl | ⟨key, version, rfl⟩
    · exact set (.inr (.inl rfl))
    · exact set (.inr (.inr ⟨key, version, rfl⟩))
  | departed h => exact left h
  | left h => exact left h
  | slept hr hp ha h => cases h; exact .inl rfl
  | _ => exact .inl rfl

theorem Move.udp [Extern] {a : Act} {w w' : World} (h : Move a w w') (cid : Nat) :
    Turned (w.udpOf cid) (w'.udpOf cid) := by
  obtain ⟨w₁, he, l, q, hl, -, rfl⟩ := h
  refine (he.udp cid).trans (.inl ?_)
  exact hl.udp cid

namespace Server

theorem world_udpOf (s : Server) (cid : Nat) : s.world.udpOf cid = s.udpOf cid := by
  show ((s.connections.get cid).map Connection.link).bind _ = (s.connections.get cid).bind _
  cases s.connections.get cid <;> rfl

/-- **A command keeps a session, ends it, or opens a new one.** -/
theorem step_udp [Extern] {env : Env} {s t : Server} {c : Command} {config : Config} (hb : s.world.Base config)
    (h : s.step env c = some t) (cid : Nat) : Turned (s.udpOf cid) (t.udpOf cid) := by
  rw [← world_udpOf, ← world_udpOf]
  exact (step_chain hb h).relates (I := fun _ => True) (R := fun w w' => Turned (w.udpOf cid) (w'.udpOf cid))
    (fun _ => .inl rfl) (fun _ _ _ => Turned.trans) (fun _ _ _ _ _ _ => trivial) (fun _ _ _ _ hm _ => hm.udp cid) trivial

/-- What every move keeps does not look at connections. -/
theorem base_of_core [Extern] {s s' : Server} {config : Config} (h : s'.toCore = s.toCore) (hb : s.world.Base config) :
    s'.world.Base config := by
  obtain ⟨hc, hk, hq⟩ := hb
  refine ⟨(congrArg Core.config h).trans hc, ⟨fun {id q} hx => @World.Keyed.seats _ hk id q ?_, fun {id r} hx => hk.rooms ?_⟩, ?_⟩
  · rw [← hx]
    show (s.players.get id).map Player.seat = (s'.players.get id).map Player.seat
    rw [show s'.players = s.players from congrArg Core.players h]
  · rw [← hx]
    show s.rooms.get id = s'.rooms.get id
    rw [show s'.rooms = s.rooms from congrArg Core.rooms h]
  · unfold World.Queued
    rw [show s'.world.queue = s.world.queue from congrArg Core.delayed h,
      show s'.world.config = s.world.config from congrArg Core.config h]
    exact hq

/-! Runs of commands and datagrams. -/

/-- One input of the process; a datagram comes with its time and the challenge it draws. -/
inductive Input where
  | command (env : Env) (c : Command)
  | datagram (b : Bytes) (source : String) (t : Nat) (challenge : Bytes)

def Input.time : Input → Nat
  | .command env _ => env.now
  | .datagram _ _ t _ => t

/-- The sessions opened from one state to the next. -/
def opens (s t : Server) : List Udp.Event :=
  t.connections.entries.filterMap (fun x => match x.2.udp with
    | some u => if s.udpOf x.1 = some u then none else some (.opened x.1 u.secret)
    | none => none)

theorem mem_opens {s t : Server} {cid : Nat} {u : Udp.Session} (ht : t.udpOf cid = some u) (hs : s.udpOf cid ≠ some u) :
    .opened cid u.secret ∈ s.opens t := by
  obtain ⟨c, hc, hu⟩ := Option.bind_eq_some_iff.1 ht
  refine List.mem_filterMap.2 ⟨(cid, c), IndexMap.mem_entries_of_get hc, ?_⟩
  show (match c.udp with | some u => _ | none => _) = _
  rw [hu]
  exact if_neg hs

theorem opens_opened {s t : Server} {e : Udp.Event} (h : e ∈ s.opens t) : ∃ cid key, e = .opened cid key := by
  obtain ⟨x, -, hx⟩ := List.mem_filterMap.1 h
  split at hx
  · split at hx
    · cases hx
    · cases hx; exact ⟨_, _, rfl⟩
  · cases hx

def serve [Extern] (s : Server) : Input → Option Reply
  | .command env c => (s.step env c).map (fun t => ⟨t, [], s.opens t⟩)
  | .datagram b source t challenge => (s.datagram b source t challenge).state

/-- A run over these inputs, with the log of what it did to datagram sessions. -/
inductive Serves [Extern] (s : Server) : List Input → List Udp.Event → Server → Prop
  | refl : Serves s [] [] s
  | tail {is : List Input} {i : Input} {log : List Udp.Event} {t : Server} {r : Reply} (h : Serves s is log t)
      (hi : t.serve i = some r) : Serves s (is ++ [i]) (log ++ r.events) r.server

theorem Received.core [Extern] {s : Server} {b : Bytes} {source : String} {t : Nat} {challenge : Bytes} {r : Reply}
    (h : Received s b source t challenge r) : r.server.toCore = s.toCore := by
  cases h with
  | ignored => rfl
  | dropped ha ht => exact ht.core
  | challenged ha hk ht hp => exact ht.core
  | proven ha hk hc ht hp => exact ht.core
  | refreshed ha hk he ht hp => exact ht.core

theorem Serves.base [Extern] {s t : Server} {is : List Input} {log : List Udp.Event} {config : Config}
    (h : Serves s is log t) (hb : s.world.Base config) : t.world.Base config := by
  induction h with
  | refl => exact hb
  | tail _ hi ih =>
    rename_i is i log t r _
    cases i with
    | command env c =>
      obtain ⟨t', ht', rfl⟩ := Option.map_eq_some_iff.1 hi
      exact ih.chain (step_chain ih ht')
    | datagram b source now challenge =>
      exact base_of_core (Out.all_of_state (datagram_received t b source now challenge) hi).core ih

end Server

/-- A key is drawn afresh: it opened no session before. -/
def Udp.Fresh (pre : List Udp.Event) (e : Udp.Event) : Prop :=
  ∀ cid key, e = .opened cid key → ∀ cid', .opened cid' key ∉ pre

/-- A sequence number is spent once under a key. -/
def Udp.Once (pre : List Udp.Event) (e : Udp.Event) : Prop :=
  ∀ cid key n, e = .spent cid key n → ∀ cid', .spent cid' key n ∉ pre

/-- A key belongs to one connection. -/
theorem Udp.Fresh.unique {log : List Udp.Event} (h : Ledger Udp.Fresh log) {a b : Nat} {key : Bytes}
    (ha : .opened a key ∈ log) (hb : .opened b key ∈ log) : a = b := by
  obtain ⟨pre, post, rfl⟩ := List.append_of_mem ha
  rcases List.mem_append.1 hb with hb | hb
  · exact absurd hb (h pre _ post rfl a key rfl b)
  · rcases List.mem_cons.1 hb with hb | hb
    · cases hb; rfl
    · obtain ⟨pre', post', rfl⟩ := List.append_of_mem hb
      refine absurd ?_ (h (pre ++ .opened a key :: pre') _ post' (by simp) b key rfl a)
      exact List.mem_append_right _ (List.mem_cons_self ..)

/-- What every run keeps of the log. -/
structure Sessions [Extern] (config : Config) (log : List Udp.Event) (s : Server) : Prop where
  base : s.world.Base config
  opened : ∀ cid u, s.udpOf cid = some u → .opened cid u.secret ∈ log
  spent : ∀ cid key n, .spent cid key n ∈ log → .opened cid key ∈ log
  covers : ∀ cid u n, s.udpOf cid = some u → .spent cid u.secret n ∈ log → u.replay.Covers n
  once : Ledger Udp.Once log

namespace Sessions

open Server

variable [Extern] {config : Config} {log : List Udp.Event} {s s' : Server}

/-- A new session's key has spent nothing. -/
theorem command {env : Env} {c : Command} (h : Sessions config log s) (hs : s.step env c = some s')
    (hfresh : Ledger Udp.Fresh (log ++ s.opens s')) : Sessions config (log ++ s.opens s') s' := by
  have old : ∀ {cid key n}, .spent cid key n ∈ log ++ s.opens s' → .spent cid key n ∈ log := by
    intro cid key n hm
    rcases List.mem_append.1 hm with hm | hm
    · exact hm
    · obtain ⟨_, _, he⟩ := opens_opened hm; cases he
  refine ⟨h.base.chain (step_chain h.base hs), fun cid u hu => ?_, fun cid key n hm => ?_, fun cid u n hu hm => ?_,
    h.once.append_free (fun e he pre cid key n hc => ?_)⟩
  · by_cases hold : s.udpOf cid = some u
    · exact List.mem_append_left _ (h.opened cid u hold)
    · exact List.mem_append_right _ (mem_opens hu hold)
  · exact List.mem_append_left _ (h.spent cid key n (old hm))
  · by_cases hold : s.udpOf cid = some u
    · exact h.covers cid u n hold (old hm)
    · obtain ⟨pre, post, hsplit⟩ := List.append_of_mem (mem_opens hu hold)
      have := hfresh (log ++ pre) _ post (by rw [hsplit, List.append_assoc]) cid u.secret rfl cid
      exact absurd (List.mem_append_left _ (h.spent cid _ n (old hm))) this
  · obtain ⟨_, _, hc'⟩ := opens_opened he
    rw [hc] at hc'
    cases hc'

/-- The session a datagram names spends its number. -/
theorem spend {b : Bytes} {u v : Udp.Session} {replay : Udp.Replay} {es : List Udp.Event}
    (h : Sessions config log s) (hfresh : Ledger Udp.Fresh log) (ha : s.Admits b u replay)
    (ht : s.Touches s' (Udp.connectionOf b) v) (hv : v.secret = u.secret) (hr : v.replay = replay)
    (hes : ∀ e ∈ es, ∀ cid key n, e ≠ .spent cid key n) :
    Sessions config (log ++ .spent (Udp.connectionOf b) u.secret (sequenceOf b) :: es) s' := by
  have hopen := h.opened _ u ha.session
  have secret : ∀ {cid u'}, s'.udpOf cid = some u' → ∃ u₀, s.udpOf cid = some u₀ ∧ u'.secret = u₀.secret ∧
      (u'.replay = u₀.replay ∨ (cid = Udp.connectionOf b ∧ u₀ = u ∧ u'.replay = replay)) := by
    intro cid u' hu'
    by_cases hc : cid = Udp.connectionOf b
    · obtain ⟨n, hn⟩ := ht.own
      rw [hc, hn] at hu'
      cases hu'
      exact ⟨u, hc ▸ ha.session, hv, .inr ⟨hc, rfl, hr⟩⟩
    · rcases ht.others cid hc with hs | ⟨u₀, n, hu₀, hn⟩
      · exact ⟨u', hs ▸ hu', rfl, .inl rfl⟩
      · rw [hn] at hu'
        cases hu'
        exact ⟨u₀, hu₀, rfl, .inl rfl⟩
  have old : ∀ {cid key n}, .spent cid key n ∈ log ++ .spent (Udp.connectionOf b) u.secret (sequenceOf b) :: es →
      .spent cid key n ∈ log ∨ (cid = Udp.connectionOf b ∧ key = u.secret ∧ n = sequenceOf b) := by
    intro cid key n hm
    rcases List.mem_append.1 hm with hm | hm
    · exact .inl hm
    · rcases List.mem_cons.1 hm with hm | hm
      · cases hm; exact .inr ⟨rfl, rfl, rfl⟩
      · exact absurd rfl (hes _ hm cid key n)
  obtain ⟨hnew, hkeep⟩ := Udp.Replay.accept_covers ha.fresh
  refine ⟨base_of_core ht.core h.base, fun cid u' hu' => ?_, fun cid key n hm => ?_, fun cid u' n hu' hm => ?_, ?_⟩
  · obtain ⟨u₀, hu₀, hsec, -⟩ := secret hu'
    rw [hsec]
    exact List.mem_append_left _ (h.opened cid u₀ hu₀)
  · rcases old hm with hm | ⟨rfl, rfl, rfl⟩
    · exact List.mem_append_left _ (h.spent cid key n hm)
    · exact List.mem_append_left _ hopen
  · obtain ⟨u₀, hu₀, hsec, hrep⟩ := secret hu'
    rcases hrep with hrep | ⟨rfl, rfl, hrep⟩
    · rw [hrep]
      rcases old hm with hm | ⟨rfl, -, rfl⟩
      · exact h.covers cid u₀ n hu₀ (hsec ▸ hm)
      · -- the session of the datagram is another's only if nothing changed
        obtain ⟨m, hm'⟩ := ht.own
        rw [hm'] at hu'
        cases hu'
        rw [← hrep]
        show v.replay.Covers _
        rw [hr]
        exact hnew
    · rw [hrep]
      rcases old hm with hm | ⟨-, -, rfl⟩
      · exact hkeep n (h.covers _ u₀ n hu₀ (hsec ▸ hm))
      · exact hnew
  · rw [← List.singleton_append, ← List.append_assoc]
    refine Ledger.append_free (Ledger.snoc_iff.2 ⟨h.once, fun cid key n he cid' hm => ?_⟩)
      (fun e he pre cid key n hc => absurd hc (hes e he cid key n))
    cases he
    -- a number spent under this key was spent in this session
    have hcid := Udp.Fresh.unique hfresh (h.spent cid' _ _ hm) hopen
    subst hcid
    have := (h.covers _ u _ ha.session hm).refused
    rw [ha.fresh] at this
    cases this

theorem received {b : Bytes} {source : String} {t : Nat} {challenge : Bytes} {r : Reply}
    (h : Sessions config log s) (hfresh : Ledger Udp.Fresh log) (hr : Received s b source t challenge r) :
    Sessions config (log ++ r.events) r.server := by
  cases hr with
  | ignored => rw [List.append_nil]; exact h
  | dropped ha ht => exact h.spend hfresh ha ht rfl rfl (fun e he => nomatch he)
  | challenged ha hk ht hp =>
    refine h.spend hfresh ha ht rfl rfl (fun e he cid key n hc => ?_)
    rw [List.mem_singleton.1 he] at hc; cases hc
  | proven ha hk hc ht hp =>
    refine h.spend hfresh ha ht rfl rfl (fun e he cid key n hc => ?_)
    rw [List.mem_singleton.1 he] at hc; cases hc
  | refreshed ha hk he ht hp =>
    refine h.spend hfresh ha ht rfl rfl (fun e he cid key n hc => ?_)
    rw [List.mem_singleton.1 he] at hc; cases hc

theorem boot (config : Config) (store : Store) (push : Bool) : Sessions config [] (Server.boot config store push) :=
  ⟨boot_base config store push, (fun _ _ h => nomatch h), (fun _ _ _ h => nomatch h), (fun _ _ _ h => nomatch h),
    Ledger.nil⟩

/-- **Every run keeps them**, as long as keys are drawn afresh. -/
theorem run {store : Store} {push : Bool} {is : List Input} (h : Serves (Server.boot config store push) is log s)
    (hfresh : Ledger Udp.Fresh log) : Sessions config log s := by
  induction h with
  | refl => exact .boot config store push
  | tail _ hi ih =>
    rename_i is i log t r _
    have ht := ih (Ledger.append_iff.1 hfresh).1
    cases i with
    | command env c =>
      obtain ⟨t', ht', rfl⟩ := Option.map_eq_some_iff.1 hi
      exact ht.command ht' hfresh
    | datagram b source now challenge =>
      exact ht.received (Ledger.append_iff.1 hfresh).1 (Out.all_of_state (datagram_received t b source now challenge) hi)

end Sessions
namespace Server

variable [Extern]

/-- **A datagram that its session did not sign, that is of an old membership, or that was seen before, does nothing.** -/
theorem datagram_ignored {s : Server} {b : Bytes} (source : String) (t : Nat) (challenge : Bytes)
    (h : ∀ c p r u, s.bearer (Udp.connectionOf b) = some (c, p, r, u) →
      authentic u.secret b = false ∨ u.replay.accept (sequenceOf b) = none) :
    s.datagram b source t challenge = .ok ⟨s, [], []⟩ := by
  unfold datagram
  split
  · rfl
  dsimp only
  cases hb : s.bearer (Udp.connectionOf b) with
  | none => rfl
  | some x =>
    obtain ⟨c, p, r, u⟩ := x
    dsimp only
    rcases h c p r u hb with h | h
    · rw [if_pos h]
    · split
      · rfl
      · rw [h]

omit [Extern] in
/-- What a bearer's session is. -/
theorem bearer_some {s : Server} {cid : Nat} {c : Connection} {p : Player} {r : Room} {u : Udp.Session}
    (h : s.bearer cid = some (c, p, r, u)) : s.udpOf cid = some u ∧ s.connections.get cid = some c ∧
      (∃ id, c.player = some id ∧ s.players.get id = some p) ∧ u.version = p.version := by
  unfold bearer at h
  obtain ⟨c', hc', h⟩ := Option.bind_eq_some_iff.1 h
  obtain ⟨hc', -⟩ := Option.filter_eq_some_iff.1 hc'
  obtain ⟨p', hp', h⟩ := Option.bind_eq_some_iff.1 h
  obtain ⟨hp', -⟩ := Option.filter_eq_some_iff.1 hp'
  obtain ⟨id, hid, hget⟩ := Option.bind_eq_some_iff.1 hp'
  obtain ⟨r', -, h⟩ := Option.bind_eq_some_iff.1 h
  obtain ⟨u', hu', he⟩ := Option.map_eq_some_iff.1 h
  cases he
  obtain ⟨hu', hver⟩ := Option.filter_eq_some_iff.1 hu'
  exact ⟨by unfold udpOf; rw [hc']; exact hu', hc', ⟨id, hid, hget⟩, of_decide_eq_true hver⟩

/-- **Forged and replayed datagrams do nothing, and each authentic one counts once.**  In every state of every run whose
keys are drawn afresh: a datagram whose tag is not its session's, whose session is of an old membership, or whose number
its session has spent, leaves the server as it was and sends nothing; a datagram that does anything spends its number;
and no number is spent twice under one key. -/
theorem datagrams_count_once {config : Config} {store : Store} {push : Bool} {is : List Input} {log : List Udp.Event}
    {s : Server} (h : Serves (boot config store push) is log s) (hfresh : Ledger Udp.Fresh log) :
    (∀ b source t challenge,
      ((∀ u, s.udpOf (Udp.connectionOf b) = some u → Extern.hmacSha256 u.secret (bodyOf b) ≠ tagOf b) ∨
        (∀ u c id p, s.udpOf (Udp.connectionOf b) = some u → s.connections.get (Udp.connectionOf b) = some c →
          c.player = some id → s.players.get id = some p → u.version ≠ p.version) ∨
        ∃ u, s.udpOf (Udp.connectionOf b) = some u ∧ .spent (Udp.connectionOf b) u.secret (sequenceOf b) ∈ log) →
      s.datagram b source t challenge = .ok ⟨s, [], []⟩) ∧
    (∀ b source t challenge r, (s.datagram b source t challenge).state = some r → r = ⟨s, [], []⟩ ∨
      ∃ u es, s.udpOf (Udp.connectionOf b) = some u ∧
        r.events = .spent (Udp.connectionOf b) u.secret (sequenceOf b) :: es) ∧
    Ledger Udp.Once log := by
  have hs := Sessions.run h hfresh
  refine ⟨fun b source t challenge hbad => datagram_ignored source t challenge (fun c p r u hb => ?_),
    fun b source t challenge r hr => ?_, hs.once⟩
  · obtain ⟨hu, hc, ⟨id, hid, hp⟩, hver⟩ := bearer_some hb
    rcases hbad with hforged | hold | ⟨u', hu', hspent⟩
    · exact .inl (decide_eq_false (hforged u hu))
    · exact absurd hver (hold u c id p hu hc hid hp)
    · rw [hu] at hu'
      cases hu'
      exact .inr (hs.covers _ u _ hu hspent).refused
  · have hrec := Out.all_of_state (datagram_received s b source t challenge) hr
    cases hrec with
    | ignored => exact .inl rfl
    | dropped ha ht => exact .inr ⟨_, _, ha.session, rfl⟩
    | challenged ha hk ht hp => exact .inr ⟨_, _, ha.session, rfl⟩
    | proven ha hk hc ht hp => exact .inr ⟨_, _, ha.session, rfl⟩
    | refreshed ha hk he ht hp => exact .inr ⟨_, _, ha.session, rfl⟩

/-- Serve inputs one after the other. -/
def serveAll : List Input → List Udp.Event → Server → Option (List Udp.Event × Server)
  | [], log, s => some (log, s)
  | i :: is, log, s => (s.serve i).bind (fun r => serveAll is (log ++ r.events) r.server)

theorem serveAll_serves {b : Server} : ∀ {is js : List Input} {log log' : List Udp.Event} {s t : Server},
    Serves b js log s → serveAll is log s = some (log', t) → Serves b (js ++ is) log' t
  | [], js, log, log', s, t, h, he => by cases he; rw [List.append_nil]; exact h
  | i :: is, js, log, log', s, t, h, he => by
    obtain ⟨r, hr, he⟩ := Option.bind_eq_some_iff.1 he
    have := serveAll_serves (h.tail hr) he
    rw [List.append_assoc] at this
    exact this

end Server

namespace Trace

open Server

/-- Datagrams are on. -/
def withUdp : Config := { Config.default with udpEnabled := true }

def openUdp : Value := .obj [("method", .str "openUdp"), ("data", .null)]

/-- Every tag is 32 times the same byte. -/
@[reducible] def tagging (values : List Value) : Extern :=
  { Extern.reading values with hmacSha256 := fun _ _ => List.replicate 32 7 }

/-- A tagged packet of the first connection. -/
def packet (kind : UInt8) (sequence : Nat) (payload : Bytes) : Bytes :=
  Udp.magic ++ kind :: (Udp.u64Bytes 1 ++ Udp.u64Bytes sequence ++ Udp.nilAddress ++ payload ++ List.replicate 32 7)

/-- The first account opens a session in its room and sends this. -/
def sending (packets : List Bytes) : List Input :=
  (opening ++ [(Env.plain 1, Command.tells 1 openUdp)]).map (fun x => .command x.1 x.2) ++
    packets.map (fun b => .datagram b "192.0.2.1:9" 2 (List.replicate 16 5))

end Trace

namespace Server

theorem datagrams_count_once_hello :
    letI := Trace.tagging [Trace.signUp, Trace.createRoom, Trace.openUdp]
    ∃ log s, Serves (boot Trace.withUdp .empty false) (Trace.sending [Trace.packet 0 1 (List.replicate 16 0)]) log s ∧
      .spent 1 [2] 1 ∈ log ∧ Ledger Udp.Once log ∧
      s.datagram (Trace.packet 0 1 (List.replicate 16 0)) "198.51.100.1:9" 3 [] = .ok ⟨s, [], []⟩ := by
  let _ := Trace.tagging [Trace.signUp, Trace.createRoom, Trace.openUdp]
  have h : (serveAll (Trace.sending [Trace.packet 0 1 (List.replicate 16 0)]) [] (boot Trace.withUdp .empty false)).any
      (fun x => decide (x.1 = [.opened 1 [2], .spent 1 [2] 1, .challenged 1 [2] "192.0.2.1:9" (List.replicate 16 5) 2]) &&
        decide ((x.2.udpOf 1).map (·.secret) = some [2])) = true := by
    decide +kernel
  obtain ⟨⟨log, s⟩, hs, ha⟩ := (Option.any_eq_true _ _).1 h
  simp only [Bool.and_eq_true, decide_eq_true_eq] at ha
  obtain ⟨rfl, hsec⟩ := ha
  have hrun := serveAll_serves .refl hs
  have hfresh : Ledger Udp.Fresh [.opened 1 [2], .spent 1 [2] 1, .challenged 1 [2] "192.0.2.1:9" (List.replicate 16 5) 2] := by
    refine Ledger.append_free (a := [Udp.Event.opened 1 [2]]) (Ledger.singleton_iff.2 (fun _ _ _ _ => List.not_mem_nil)) ?_
    intro e he pre cid key hc
    rw [hc] at he
    simp at he
  obtain ⟨hignore, -, honce⟩ := datagrams_count_once hrun hfresh
  obtain ⟨u, hu, hkey⟩ := Option.map_eq_some_iff.1 hsec
  refine ⟨_, s, hrun, by simp, honce, hignore _ _ _ _ (.inr (.inr ⟨u, hu, ?_⟩))⟩
  rw [hkey]
  simp only [List.mem_cons]
  exact .inr (.inl rfl)

end Server
end Relay
