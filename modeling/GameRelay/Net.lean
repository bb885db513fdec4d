import Mathlib
import GameRelay.Receive
/-!
# Net — what sending changes

A connection's `Link` is its account, whether it is closing, and its datagram session with the two budgets.
`Kept l l'`: the same connections, each bound to the same account, and none that was closing open again.  Every sending
function leaves the core alone and keeps the links (`Sent`).
-/
namespace Relay

structure Link where
  player : Option String
  closing : Bool
  udp : Option Udp.Session
  incoming : Udp.Rate
  outgoing : Udp.Rate

def Connection.link (c : Connection) : Link :=
  ⟨c.player, c.closing, c.udp, c.udpIncomingRate, c.udpOutgoingRate⟩

/-- What sending keeps of a connection. -/
structure Link.Keeps (a b : Link) : Prop where
  player : b.player = a.player
  udp : b.udp = a.udp
  closing : a.closing = true → b.closing = true
  incoming : b.incoming = a.incoming
  outgoing : b.outgoing = a.outgoing

theorem Link.Keeps.refl (a : Link) : a.Keeps a := ⟨rfl, rfl, id, rfl, rfl⟩

theorem Link.Keeps.trans {a b c : Link} (h : a.Keeps b) (h' : b.Keeps c) : a.Keeps c :=
  ⟨h'.player.trans h.player, h'.udp.trans h.udp, fun hc => h'.closing (h.closing hc), h'.incoming.trans h.incoming,
    h'.outgoing.trans h.outgoing⟩

def Kept (l l' : Nat → Option Link) : Prop :=
  ∀ cid, (l cid = none ∧ l' cid = none) ∨ ∃ a b, l cid = some a ∧ l' cid = some b ∧ a.Keeps b

namespace Kept

theorem refl (l : Nat → Option Link) : Kept l l := fun cid => by
  cases h : l cid with
  | none => exact .inl ⟨rfl, rfl⟩
  | some a => exact .inr ⟨a, a, rfl, rfl, .refl a⟩

theorem trans {l m n : Nat → Option Link} (h : Kept l m) (h' : Kept m n) : Kept l n := fun cid => by
  rcases h cid with ⟨hl, hm⟩ | ⟨a, b, hl, hm, hab⟩
  · rcases h' cid with ⟨-, hn⟩ | ⟨b', c, hm', -, -⟩
    · exact .inl ⟨hl, hn⟩
    · rw [hm] at hm'; cases hm'
  · rcases h' cid with ⟨hm', -⟩ | ⟨b', c, hm', hn, hbc⟩
    · rw [hm] at hm'; cases hm'
    · rw [hm] at hm'; cases hm'
      exact .inr ⟨a, c, hl, hn, hab.trans hbc⟩

theorem get {l l' : Nat → Option Link} (h : Kept l l') {cid : Nat} {a : Link} (ha : l cid = some a) :
    ∃ b, l' cid = some b ∧ a.Keeps b := by
  rcases h cid with ⟨hn, -⟩ | ⟨a', b, ha', hb, hk⟩
  · rw [ha] at hn; cases hn
  · rw [ha] at ha'; cases ha'; exact ⟨b, hb, hk⟩

theorem get' {l l' : Nat → Option Link} (h : Kept l l') {cid : Nat} {b : Link} (hb : l' cid = some b) :
    ∃ a, l cid = some a ∧ a.Keeps b := by
  rcases h cid with ⟨-, hn⟩ | ⟨a, b', ha, hb', hk⟩
  · rw [hb] at hn; cases hn
  · rw [hb] at hb'; cases hb'; exact ⟨a, ha, hk⟩

/-- Changing one link within `Keeps` keeps the links. -/
theorem update {l : Nat → Option Link} {cid : Nat} {a b : Link} (ha : l cid = some a) (hk : a.Keeps b) :
    Kept l (Function.update l cid (some b)) := fun x => by
  by_cases hx : x = cid
  · subst hx
    exact .inr ⟨a, b, ha, Function.update_self .., hk⟩
  · rw [Function.update_of_ne hx]
    exact refl l x

theorem update_both {l l' : Nat → Option Link} (h : Kept l l') {cid : Nat} {a b : Link} (hk : a.Keeps b) :
    Kept (Function.update l cid (some a)) (Function.update l' cid (some b)) := fun x => by
  by_cases hx : x = cid
  · subst hx
    exact .inr ⟨a, b, Function.update_self .., Function.update_self .., hk⟩
  · rw [Function.update_of_ne hx, Function.update_of_ne hx]
    exact h x

end Kept

/-- The links with one of them closing. -/
def closeLink (links : Nat → Option Link) (old : Option Nat) : Nat → Option Link :=
  fun c => if old = some c then (links c).map (fun l => { l with closing := true }) else links c

theorem Kept.closed {l l' : Nat → Option Link} (h : Kept l l') {old : Option Nat}
    (ho : ∀ c b, old = some c → l' c = some b → b.closing = true) : Kept (closeLink l old) l' := fun x => by
  unfold closeLink
  rcases h x with ⟨hl, hl'⟩ | ⟨a, b, ha, hb, hk⟩
  · rw [hl]; exact .inl ⟨by split <;> rfl, hl'⟩
  · rw [ha]
    refine .inr ⟨if old = some x then { a with closing := true } else a, b, by split <;> rfl, hb, ?_⟩
    split
    · rename_i hx
      exact ⟨hk.player, hk.udp, fun _ => ho x b hx hb, hk.incoming, hk.outgoing⟩
    · exact hk

namespace Server

/-- Every connection's link. -/
def links (s : Server) : Nat → Option Link := fun cid => (s.connections.get cid).map Connection.link

theorem links_congr {s s' : Server} (h : s'.connections = s.connections) : s'.links = s.links := by
  unfold links; rw [h]

theorem links_setConnection (s : Server) (cid : Nat) (c : Connection) :
    (s.setConnection cid c).links = Function.update s.links cid (some c.link) := by
  funext x
  show ((s.connections.insert cid c).get x).map Connection.link = _
  by_cases hx : x = cid
  · subst hx
    rw [IndexMap.get_insert_self, Function.update_self]; rfl
  · rw [IndexMap.get_insert_ne _ _ hx, Function.update_of_ne hx]; rfl

theorem links_get {s : Server} {cid : Nat} {c : Connection} (h : s.connections.get cid = some c) :
    s.links cid = some c.link := by
  unfold links; rw [h]; rfl

theorem kept_setConnection {s : Server} {cid : Nat} {c c' : Connection} (h : s.connections.get cid = some c)
    (hk : c.link.Keeps c'.link) : Kept s.links (s.setConnection cid c').links := by
  rw [links_setConnection]
  exact .update (links_get h) hk

/-- Nothing but frames went out. -/
def Sent (s s' : Server) : Prop := s'.toCore = s.toCore ∧ Kept s.links s'.links

namespace Sent

theorem refl (s : Server) : Sent s s := ⟨rfl, .refl s.links⟩

theorem trans {s t u : Server} (h : Sent s t) (h' : Sent t u) : Sent s u := ⟨h'.1.trans h.1, h.2.trans h'.2⟩

theorem foldl {α : Type} {f : Server → α → Server} (hf : ∀ s a, Sent s (f s a)) :
    ∀ (l : List α) (s : Server), Sent s (l.foldl f s)
  | [], s => .refl s
  | a :: l, s => (hf s a).trans (foldl hf l (f s a))

end Sent

variable [Extern]

theorem sent_raw (s : Server) (cid : Nat) (msg : Message) : Sent s (s.raw cid msg) := by
  refine ⟨raw_toCore s cid msg, ?_⟩
  unfold raw
  cases h : s.connections.get cid with
  | none => exact .refl s.links
  | some c =>
    dsimp only
    let t : Server := { s with offered := s.offered ++ [(cid, msg)] }
    have ht : t.connections.get cid = some c := h
    split
    · exact .refl s.links
    · split
      · exact kept_setConnection ht ⟨rfl, rfl, (fun _ => rfl), rfl, rfl⟩
      · rename_i hc _
        split
        all_goals exact kept_setConnection ht ⟨rfl, rfl, (fun hc' => absurd hc' hc), rfl, rfl⟩

theorem sent_sendC (s : Server) (cid : Nat) (v : Value) : Sent s (s.sendC cid v) := by
  unfold sendC
  split
  · exact sent_raw s cid _
  · exact .refl s

theorem sent_send (s : Server) (p : String) (v : Value) : Sent s (s.send p v) := by
  unfold send
  split
  · exact sent_sendC s _ v
  · exact .refl s

theorem sent_bytes (s : Server) (p : String) (b : Bytes) : Sent s (s.bytes p b) := by
  unfold bytes
  split
  · exact sent_raw s _ _
  · exact .refl s

theorem sent_error (s : Server) (cid : Nat) (code : String) : Sent s (s.error cid code) := sent_sendC s cid _

theorem sent_err (s : Server) (p code : String) : Sent s (s.err p code) := sent_send s p _

theorem sent_close (s : Server) (cid code : Nat) (reason : String) : Sent s (s.close cid code reason) :=
  sent_raw s cid _

theorem sent_broadcastFrame (s : Server) (r : Room) (msg : Message) (except : Option String)
    (targets : Option Value) : Sent s (s.broadcastFrame r msg except targets) := by
  refine Sent.foldl (fun s id => ?_) _ s
  split
  · split
    · exact sent_raw s _ msg
    · exact .refl s
  · exact .refl s

theorem sent_broadcast (s : Server) (r : Room) (v : Value) (except : Option String) (targets : Option Value) :
    Sent s (s.broadcast r v except targets) := by
  unfold broadcast
  split
  · exact sent_broadcastFrame s r _ except targets
  · exact .refl s

theorem sent_lobby (s : Server) (v : Value) : Sent s (s.lobby v) := by
  unfold lobby
  split
  · refine Sent.foldl (fun s p => ?_) _ s
    split
    · exact sent_raw s _ _
    · exact .refl s
  · exact .refl s

theorem sent_relay (s : Server) (p : String) (v : Value) : Sent s (s.relay p v).1 := by
  unfold relay
  split
  · exact .refl s
  · exact sent_err s p _

theorem sent_reply (s : Server) (p : String) (request data : Value) : Sent s (s.reply p request data) :=
  sent_send s p _

theorem sent_errorReply (s : Server) (p : String) (req : Value) (code : String) : Sent s (s.errorReply p req code) :=
  sent_reply s p req _

theorem sent_relayTo (s : Server) (p : String) (r : Room) (v : Value) (except : Option String)
    (targets : Option Value) : Sent s (s.relayTo p r v except targets) := by
  have h := sent_relay s p v
  unfold relayTo
  split
  · rename_i s' msg hr
    rw [hr] at h
    exact h.trans (sent_broadcastFrame s' r msg except targets)
  · rename_i s' hr
    rw [hr] at h
    exact h

theorem sent_relayBytes (s : Server) (r : Room) (p : String) (addressed : String → Bool) (b : Bytes) :
    Sent s (s.relayBytes r p addressed b) := by
  refine Sent.foldl (fun s id => ?_) _ s
  split
  · exact sent_bytes s id b
  · exact .refl s

theorem sent_offerSeats (s : Server) (r : Room) : Sent s (s.offerSeats r) := by
  unfold offerSeats
  split
  · refine Sent.foldl (fun s id => ?_) _ s
    split
    · exact sent_send s id _
    · exact .refl s
  · exact .refl s

omit [Extern] in
theorem all_mapOut {α β : Type} {P : α → Prop} {Q : β → Prop} {f : α → β} : ∀ {o : Out α}, o.All P →
    (∀ a, P a → Q (f a)) → (mapOut f o).All Q
  | .ok a, h, hf => hf a h
  | .err a, h, hf => hf a h
  | .halt _, _, _ => trivial

theorem sent_authenticationFailed (s : Server) (cid : Nat) : Sent s (s.authenticationFailed cid) :=
  (sent_sendC s cid _).trans (sent_close _ cid _ _)

/-- **A close leaves its connection closing**, whatever else was queued to it. -/
theorem closing_close (s : Server) (cid code : Nat) (reason : String) {c : Connection}
    (h : (s.close cid code reason).connections.get cid = some c) : c.closing = true := by
  unfold close raw at h
  cases hc : s.connections.get cid with
  | none => rw [hc] at h; simp only at h; rw [hc] at h; cases h
  | some c₀ =>
    rw [hc] at h
    dsimp only at h
    split at h
    · rename_i hcl
      rw [hc] at h; cases h; exact hcl
    · split at h
      · rw [setConnection, IndexMap.get_insert_self] at h; cases h; rfl
      · split at h
        all_goals rw [setConnection, IndexMap.get_insert_self] at h; cases h; rfl

end Server
end Relay
