import GameRelay.Codec
/-!
# Contacts — a datagram session is the replay of its log

What a session knows of its client (`Contact`: the numbers it has seen, the challenge under way, the proven endpoint) is
told by the log of the run, event by event (`Contact.told`), whatever else happens in between.  So a handshake goes
through whenever its datagrams arrive: nobody without the key can disturb it.
-/
namespace Relay

open Udp

structure Contact where
  replay : Udp.Replay
  challenge : Option (String × Bytes × Nat)
  endpoint : Option (String × Nat)

namespace Contact

def unknown : Contact := ⟨⟨0, 0⟩, none, none⟩

/-- What one event tells of the session of this connection and key. -/
def hear (cid : Nat) (key : Bytes) (k : Contact) : Udp.Event → Contact
  | .opened c y => if c = cid ∧ y = key then unknown else k
  | .spent c y n => if c = cid ∧ y = key then { k with replay := (k.replay.accept n).getD k.replay } else k
  | .challenged c y a x t => if c = cid ∧ y = key then { k with challenge := some (a, x, t) } else k
  | .proven c y a _ t => if c = cid ∧ y = key then { k with challenge := none, endpoint := some (a, t) } else k
  | .refreshed c y a t => if c = cid ∧ y = key then { k with endpoint := some (a, t) } else k

/-- What a log tells of the session, from `k` on. -/
def told (cid : Nat) (key : Bytes) (k : Contact) (log : List Udp.Event) : Contact := log.foldl (hear cid key) k

theorem told_append (cid : Nat) (key : Bytes) (k : Contact) (log es : List Udp.Event) :
    told cid key k (log ++ es) = told cid key (told cid key k log) es := List.foldl_append ..

end Contact

/-- The connection and key an event is about. -/
def Udp.Event.session : Udp.Event → Nat × Bytes
  | .opened c y | .spent c y _ | .challenged c y _ _ _ | .proven c y _ _ _ | .refreshed c y _ _ => (c, y)

namespace Contact

variable {cid : Nat} {key : Bytes} {k : Contact} {es : List Udp.Event}

theorem hear_other {e : Udp.Event} (h : e.session ≠ (cid, key)) : hear cid key k e = k := by
  cases e <;> exact if_neg (fun he => h (Prod.ext he.1 he.2))

/-- Events of other sessions tell nothing of this one. -/
theorem told_others (h : ∀ e ∈ es, e.session ≠ (cid, key)) : told cid key k es = k := by
  induction es generalizing k with
  | nil => rfl
  | cons e es ih =>
    show told cid key (hear cid key k e) es = k
    rw [hear_other (h e (List.mem_cons_self ..))]
    exact ih (fun e' he => h e' (List.mem_cons_of_mem _ he))

/-- Where only sessions are opened, and this is one of them, nothing is known. -/
theorem told_opened (h : ∀ e ∈ es, ∃ c y, e = .opened c y) (hm : .opened cid key ∈ es) : told cid key k es = unknown := by
  have stays : ∀ (es : List Udp.Event), (∀ e ∈ es, ∃ c y, e = .opened c y) → told cid key unknown es = unknown := by
    intro es h
    induction es with
    | nil => rfl
    | cons e es ih =>
      obtain ⟨c, y, rfl⟩ := h e (List.mem_cons_self ..)
      show told cid key (if c = cid ∧ y = key then unknown else unknown) es = unknown
      rw [ite_self]
      exact ih (fun e he => h e (List.mem_cons_of_mem _ he))
  obtain ⟨pre, post, rfl⟩ := List.append_of_mem hm
  rw [told_append]
  show told cid key (if cid = cid ∧ key = key then unknown else told cid key k pre) post = unknown
  rw [if_pos ⟨rfl, rfl⟩]
  exact stays post (fun e he => h e (List.mem_append_right _ (List.mem_cons_of_mem _ he)))

/-- **A challenge stays under way** until the session answers another or is proven. -/
theorem told_challenge (h : ∀ e ∈ es, e ≠ .opened cid key ∧ e.shakes cid key = false) :
    (told cid key k es).challenge = k.challenge := by
  induction es generalizing k with
  | nil => rfl
  | cons e es ih =>
    refine (ih (k := hear cid key k e) (fun e' he => h e' (List.mem_cons_of_mem _ he))).trans ?_
    obtain ⟨hopen, hshake⟩ := h e (List.mem_cons_self ..)
    cases e with
    | opened c y =>
      have hne : ¬ (c = cid ∧ y = key) := by
        rintro ⟨rfl, rfl⟩
        exact hopen rfl
      unfold hear
      dsimp only
      rw [if_neg hne]
    | spent c y n => unfold hear; dsimp only; split <;> rfl
    | challenged c y a x t =>
      unfold hear
      dsimp only
      rw [if_neg (of_decide_eq_false hshake)]
    | proven c y a x t =>
      unfold hear
      dsimp only
      rw [if_neg (of_decide_eq_false hshake)]
    | refreshed c y a t => unfold hear; dsimp only; split <;> rfl

end Contact

/-- The challenge was sent to the source, and is answered in time. -/
def Contact.Awaits (k : Contact) (source : String) (challenge : Bytes) (t ttl : Nat) : Prop :=
  ∃ t₀, k.challenge = some (source, challenge, t₀) ∧ t - t₀ ≤ ttl

/-- The source is the endpoint, proven or refreshed in time. -/
def Contact.Reached (k : Contact) (source : String) (t ttl : Nat) : Prop :=
  ∃ t₀, k.endpoint = some (source, t₀) ∧ t - t₀ ≤ ttl

def Udp.Session.contact (u : Udp.Session) : Contact := ⟨u.replay, u.challenge, u.endpoint⟩

namespace Server

/-- **Every session is what the log tells.** -/
def Replayed (log : List Udp.Event) (s : Server) : Prop :=
  ∀ cid u, s.udpOf cid = some u → u.contact = Contact.told cid u.secret .unknown log

/-- A session that a command opened. -/
theorem opens_spec {s t : Server} {cid : Nat} {key : Bytes} (h : .opened cid key ∈ s.opens t) :
    ∃ u, t.udpOf cid = some u ∧ u.secret = key ∧ s.udpOf cid ≠ some u := by
  obtain ⟨x, hx, he⟩ := List.mem_filterMap.1 h
  cases hu : x.2.udp with
  | none => rw [hu] at he; cases he
  | some u =>
    rw [hu] at he
    dsimp only at he
    split at he
    · cases he
    · rename_i hne
      cases he
      refine ⟨u, ?_, rfl, hne⟩
      unfold udpOf
      rw [IndexMap.mem_entries.1 hx, Option.bind_some, hu]

namespace Replayed

variable [Extern] {log : List Udp.Event} {s s' : Server}

/-- A command leaves a session alone or opens it, unknown. -/
theorem command {env : Env} {cmd : Command} {config : Config} (h : s.Replayed log) (hb : s.world.Base config)
    (hs : s.step env cmd = some s') : s'.Replayed (log ++ s.opens s') := by
  intro cid u hu
  rw [Contact.told_append]
  by_cases hold : s.udpOf cid = some u
  · rw [← h cid u hold]
    refine (Contact.told_others (fun e he hc => ?_)).symm
    obtain ⟨c, y, rfl⟩ := opens_opened he
    cases hc
    obtain ⟨u', hu', -, hne⟩ := opens_spec he
    rw [hu] at hu'
    cases hu'
    exact hne hold
  · rw [Contact.told_opened (fun e he => opens_opened he) (mem_opens hu hold)]
    rcases step_udp hb hs cid with he | he | ⟨key, version, he⟩
    · exact absurd (he ▸ hu) hold
    · rw [hu] at he; cases he
    · rw [hu] at he; cases he; rfl

omit [Extern] in
/-- The session `v` takes the place of `u`, and the events tell of no other. -/
theorem touched {cid : Nat} {u v : Udp.Session} {es : List Udp.Event} (h : s.Replayed log) (hu : s.udpOf cid = some u)
    (ht : s.Touches s' cid v) (hv : v.secret = u.secret) (hes : ∀ e ∈ es, e.session = (cid, u.secret))
    (hc : Contact.told cid u.secret u.contact es = v.contact) : s'.Replayed (log ++ es) := by
  intro x w hw
  rw [Contact.told_append]
  by_cases hx : x = cid
  · subst hx
    obtain ⟨n, hn⟩ := ht.own
    rw [hn] at hw
    cases hw
    show v.contact = Contact.told x v.secret (Contact.told x v.secret .unknown log) es
    rw [hv, ← h x u hu, hc]
  · have hquiet : ∀ e ∈ es, e.session ≠ (x, w.secret) := fun e he hse => by
      rw [hes e he] at hse
      exact hx (congrArg Prod.fst hse).symm
    rw [Contact.told_others hquiet]
    rcases ht.others x hx with hs | ⟨u₀, n, hu₀, hn⟩
    · exact h x w (hs ▸ hw)
    · rw [hn] at hw
      cases hw
      exact h x u₀ hu₀

/-- **What a datagram does to its session is what its events tell.** -/
theorem received {b : Bytes} {source : String} {t : Nat} {challenge : Bytes} {r : Reply} (h : s.Replayed log)
    (hr : Received s b source t challenge r) : r.server.Replayed (log ++ r.events) := by
  cases hr with
  | ignored => rw [List.append_nil]; exact h
  | dropped ha ht =>
    refine h.touched ha.session ht rfl (fun e he => ?_) ?_
    · rw [List.mem_singleton.1 he]; rfl
    · simp [Contact.told, Contact.hear, Udp.Session.contact, ha.fresh]
  | challenged ha hk ht hp =>
    refine h.touched ha.session ht rfl (fun e he => ?_) ?_
    · rcases List.mem_pair.1 he with rfl | rfl <;> rfl
    · simp [Contact.told, Contact.hear, Udp.Session.contact, ha.fresh]
  | proven ha hk hc ht hp =>
    refine h.touched ha.session ht rfl (fun e he => ?_) ?_
    · rcases List.mem_pair.1 he with rfl | rfl <;> rfl
    · simp [Contact.told, Contact.hear, Udp.Session.contact, ha.fresh]
  | refreshed ha hk hep ht hp =>
    refine h.touched ha.session ht rfl (fun e he => ?_) ?_
    · rcases List.mem_pair.1 he with rfl | rfl <;> rfl
    · simp [Contact.told, Contact.hear, Udp.Session.contact, ha.fresh]

/-- **Every run keeps it**, from a state of which it holds. -/
theorem run {config : Config} {is : List Input} {es : List Udp.Event} (hr : Serves s is es s') (hb : s.world.Base config)
    (h : s.Replayed log) : s'.Replayed (log ++ es) := by
  induction hr with
  | refl => rw [List.append_nil]; exact h
  | tail hprev hi ih =>
    rename_i is i es t r
    rw [← List.append_assoc]
    cases i with
    | command env c =>
      obtain ⟨t', ht', rfl⟩ := Option.map_eq_some_iff.1 hi
      exact ih.command (hprev.base hb) ht'
    | datagram b source now challenge => exact ih.received (Out.all_of_state (datagram_received t b source now challenge) hi)

omit [Extern] in
theorem boot (config : Config) (store : Store) (push : Bool) : (Server.boot config store push).Replayed [] := by
  intro cid u hu
  cases hu

end Replayed

variable [Extern]

theorem Serves.trans {s t w : Server} {is js : List Input} {log es : List Udp.Event} (h : Serves s is log t)
    (h' : Serves t js es w) : Serves s (is ++ js) (log ++ es) w := by
  induction h' with
  | refl => rw [List.append_nil, List.append_nil]; exact h
  | tail _ hi ih =>
    rw [← List.append_assoc, ← List.append_assoc]
    exact ih.tail hi

/-- **An endpoint stays where it was proven**, and is as fresh as the last packet relayed from there. -/
theorem Replayed.endpoint {s s' : Server} {config : Config} {log es : List Udp.Event} {is : List Input} {cid : Nat} {key : Bytes}
    {a : String} {t : Nat} (hr : Serves s is es s') (hb : s.world.Base config) (h : s.Replayed log)
    (htimes : (t :: is.map Input.time).Pairwise (· ≤ ·)) (he : (Contact.told cid key .unknown log).endpoint = some (a, t))
    (hes : ∀ e ∈ es, e ≠ .opened cid key ∧ ∀ a x t, e ≠ .proven cid key a x t) :
    ∃ t', (Contact.told cid key .unknown (log ++ es)).endpoint = some (a, t') ∧ (∃ j ∈ t :: is.map Input.time, j = t') ∧
      t ≤ t' ∧ ∀ t₀, .refreshed cid key a t₀ ∈ es → t₀ ≤ t' := by
  induction hr with
  | refl =>
    refine ⟨t, by rw [List.append_nil]; exact he, ⟨t, List.mem_cons_self .., rfl⟩, Nat.le_refl t, fun t₀ h₀ => ?_⟩
    exact absurd h₀ List.not_mem_nil
  | tail hprev hi ih =>
    rename_i is i es w r
    rw [List.map_append, ← List.cons_append, List.pairwise_append] at htimes
    obtain ⟨t', hep, ⟨j, hj, hjt⟩, hle, hlast⟩ := ih htimes.1 (fun e hm => hes e (List.mem_append_left _ hm))
    have hlater : t' ≤ i.time := hjt ▸ htimes.2.2 j hj i.time (List.mem_singleton_self _)
    have hnew : ∀ e ∈ r.events, e ≠ .opened cid key ∧ ∀ a x t, e ≠ .proven cid key a x t := fun e hm =>
      hes e (List.mem_append_right _ hm)
    rw [← List.append_assoc, Contact.told_append]
    have hthere : ∃ j' ∈ t :: (is ++ [i]).map Input.time, j' = t' := by
      refine ⟨j, ?_, hjt⟩
      rw [List.map_append, ← List.cons_append]
      exact List.mem_append_left _ hj
    -- the input does not refresh the endpoint
    have same : (Contact.told cid key (Contact.told cid key .unknown (log ++ es)) r.events).endpoint =
          (Contact.told cid key .unknown (log ++ es)).endpoint → (∀ t₀, .refreshed cid key a t₀ ∉ r.events) →
        ∃ t', (Contact.told cid key (Contact.told cid key .unknown (log ++ es)) r.events).endpoint = some (a, t') ∧
          (∃ j ∈ t :: (is ++ [i]).map Input.time, j = t') ∧ t ≤ t' ∧
            ∀ t₀, .refreshed cid key a t₀ ∈ es ++ r.events → t₀ ≤ t' := fun hsame hno =>
      ⟨t', hsame.trans hep, hthere, hle, fun t₀ h₀ => (List.mem_append.1 h₀).elim (hlast t₀) (fun h => absurd h (hno t₀))⟩
    have others : (∀ e ∈ r.events, e.session ≠ (cid, key)) →
        ∃ t', (Contact.told cid key (Contact.told cid key .unknown (log ++ es)) r.events).endpoint = some (a, t') ∧
          (∃ j ∈ t :: (is ++ [i]).map Input.time, j = t') ∧ t ≤ t' ∧
            ∀ t₀, .refreshed cid key a t₀ ∈ es ++ r.events → t₀ ≤ t' := fun ho =>
      same (congrArg Contact.endpoint (Contact.told_others ho)) (fun t₀ h₀ => ho _ h₀ rfl)
    cases i with
    | command env c =>
      obtain ⟨w', -, rfl⟩ := Option.map_eq_some_iff.1 hi
      refine others (fun e hm hse => ?_)
      obtain ⟨c', y, rfl⟩ := opens_opened hm
      cases hse
      exact (hnew _ hm).1 rfl
    | datagram b source now challenge =>
      have hrec := Out.all_of_state (datagram_received w b source now challenge) hi
      have htold := Replayed.run hprev hb h
      cases hrec with
      | ignored => exact same rfl (fun t₀ h₀ => absurd h₀ List.not_mem_nil)
      | dropped ha ht =>
        refine same ?_ (fun t₀ h₀ => ?_)
        · show (Contact.hear cid key _ (.spent _ _ _)).endpoint = _
          unfold Contact.hear
          dsimp only
          split <;> rfl
        · cases List.mem_singleton.1 h₀
      | challenged ha hk ht hp =>
        refine same ?_ (fun t₀ h₀ => ?_)
        · show (Contact.hear cid key (Contact.hear cid key _ (.spent _ _ _)) (.challenged _ _ _ _ _)).endpoint = _
          unfold Contact.hear
          dsimp only
          split <;> rfl
        · rcases List.mem_pair.1 h₀ with h | h <;> cases h
      | proven ha hk hc ht hp =>
        rename_i u replay s' packets
        refine others (fun e hm hse => ?_)
        have hkey : (Udp.connectionOf b, u.secret) = (cid, key) := by
          rw [← hse]
          rcases List.mem_pair.1 hm with rfl | rfl <;> rfl
        cases hkey
        exact (hnew _ (List.mem_cons_of_mem _ (List.mem_singleton_self _))).2 _ _ _ rfl
      | refreshed ha hk hep' ht hp =>
        rename_i u replay s' packets
        by_cases hkey : (Udp.connectionOf b, u.secret) = (cid, key)
        · cases hkey
          -- the packet came from the endpoint
          have hcontact := congrArg Contact.endpoint (htold _ u ha.session)
          obtain ⟨⟨a', t₁⟩, hu, hok⟩ := (Option.any_eq_true _ _).1 hep'
          obtain ⟨rfl, -⟩ := of_decide_eq_true hok
          have heq : some (a', t₁) = some (a, t') := by
            rw [← hu, ← hep]
            exact hcontact
          cases heq
          refine ⟨now, ?_, ⟨now, ?_, rfl⟩, Nat.le_trans hle hlater, fun t₀ h₀ => ?_⟩
          · simp [Contact.told, Contact.hear]
          · rw [List.map_append, ← List.cons_append]
            exact List.mem_append_right _ (List.mem_singleton_self _)
          · rcases List.mem_append.1 h₀ with h₀ | h₀
            · exact Nat.le_trans (hlast t₀ h₀) hlater
            · rcases List.mem_pair.1 h₀ with h | h
              · cases h
              · cases h; exact Nat.le_refl _
        · refine others (fun e hm hse => hkey ?_)
          rw [← hse]
          rcases List.mem_pair.1 hm with rfl | rfl <;> rfl


/-- The packet, sent under this key at `t`, gets through to the session: a client may send it, the session bears it and
has not seen its number, and the quota has room. -/
structure Arrives (s : Server) (key : Bytes) (t : Nat) (pk : Packet) (c : Connection) (p : Player) (r : Room)
    (u : Udp.Session) : Prop where
  allowed : pk.Allowed s.config
  bearer : s.bearer pk.cid = some (c, p, r, u)
  signed : u.secret = key
  fresh : (u.replay.accept pk.sequence).isSome
  budget : (c.udpIncomingRate.accept t s.config.udpIncomingPacketsPerSecond).2 = true

/-- The session has a number and the connection has quota for an answer. -/
def Answerable (s : Server) (t : Nat) (c : Connection) (u : Udp.Session) : Prop :=
  (c.udpOutgoingRate.accept t s.config.udpOutgoingPacketsPerSecond).2 = true ∧ u.outgoing + 1 < 2 ^ 64

omit [Extern] in
theorem Arrives.contact {s : Server} {log : List Udp.Event} {key : Bytes} {t : Nat} {pk : Packet} {c : Connection}
    {p : Player} {r : Room} {u : Udp.Session} (h : s.Arrives key t pk c p r u) (ht : s.Replayed log) :
    u.contact = Contact.told pk.cid key .unknown log := by
  rw [← h.signed]
  exact ht _ u (bearer_some h.bearer).1

theorem answer_answered {s : Server} {cid : Nat} {c : Connection} {u : Udp.Session} {t : Nat} (h : s.Answerable t c u)
    (source : String) (kind : UInt8) (payload : Bytes) : (s.answer cid c u source t kind payload).2 =
      [(source, Udp.encode u.secret kind cid (u.outgoing + 1) nilAddress payload)] := by
  unfold answer Udp.Session.packet
  dsimp only
  rw [if_pos h.1, if_pos h.2]

section Arriving

variable (hmac : ∀ key body, (Extern.hmacSha256 key body).length = 32)

include hmac

/-- **A packet that arrives** spends its number and is handled by its kind. -/
theorem Arrives.datagram {s : Server} {key : Bytes} {t : Nat} {pk : Packet} {c : Connection} {p : Player} {r : Room}
    {u : Udp.Session} (h : s.Arrives key t pk c p r u) (source : String) (challenge : Bytes) :
    ∃ replay, u.replay.accept pk.sequence = some replay ∧ s.datagram (pk.encode key) source t challenge =
      mapOut (fun x => { x with events := .spent pk.cid key pk.sequence :: x.events })
        (let u' := { u with replay := replay }
         let c' := { c with
          udp := some u'
          udpIncomingRate := (c.udpIncomingRate.accept t s.config.udpIncomingPacketsPerSecond).1 }
         if pk.kind = 0 then .ok (s.hello pk.cid c' u' source t challenge)
         else if pk.kind = 1 then .ok (s.confirm pk.cid c' u' source t pk.payload)
         else s.relayPacket pk.cid c' p r u' source t pk.address pk.payload) := by
  obtain ⟨replay, hreplay⟩ := Option.isSome_iff_exists.1 h.fresh
  refine ⟨replay, hreplay, ?_⟩
  have hcid : Udp.connectionOf (pk.encode key) = pk.cid := Server.connectionOf_encode _ _ _ _ _ pk.cid_lt
  have hseq : sequenceOf (pk.encode key) = pk.sequence := Server.sequenceOf_encode _ _ _ _ _ pk.sequence_lt
  have haddress : targetOf (pk.encode key) = pk.address := Server.targetOf_encode _ _ _ _ _ pk.length_address
  have hkind : kindOf (pk.encode key) = pk.kind := rfl
  have hauth : authentic u.secret (pk.encode key) = true := by
    rw [h.signed]
    exact authentic_encode hmac _ _ _ _ _ _
  unfold Server.datagram
  rw [(Packet.shaped_encode hmac s.config key pk).2 h.allowed, hcid, hseq, haddress, hkind, Packet.payloadOf_encode hmac]
  dsimp only
  rw [if_neg (by simp), h.bearer]
  dsimp only
  rw [hauth, if_neg (by simp), hreplay, h.signed]
  dsimp only
  rw [if_neg (by rw [h.budget]; simp)]

/-- **A hello is answered** with the challenge it draws. -/
theorem Arrives.challenged {s : Server} {key : Bytes} {t : Nat} {pk : Packet} {c : Connection} {p : Player} {r : Room}
    {u : Udp.Session} (h : s.Arrives key t pk c p r u) (hk : pk.kind = 0) (ha : s.Answerable t c u) (source : String)
    (challenge : Bytes) : ∃ reply, s.datagram (pk.encode key) source t challenge = .ok reply ∧
      reply.packets = [(source, Udp.encode key 3 pk.cid (u.outgoing + 1) nilAddress challenge)] ∧
      reply.events = [.spent pk.cid key pk.sequence, .challenged pk.cid key source challenge t] := by
  obtain ⟨replay, -, hd⟩ := h.datagram hmac source challenge
  dsimp only at hd
  rw [if_pos hk] at hd
  refine ⟨_, hd, ?_, ?_⟩
  · rw [← h.signed]
    exact answer_answered (by exact ha) source 3 challenge
  · show [_, Udp.Event.challenged pk.cid u.secret source challenge t] = _
    rw [h.signed]

/-- **A confirmation proves its source exactly if it answers the challenge under way**, sent there and in time. -/
theorem Arrives.confirmed {s : Server} {log : List Udp.Event} {key : Bytes} {t : Nat} {pk : Packet} {c : Connection}
    {p : Player} {r : Room} {u : Udp.Session} (h : s.Arrives key t pk c p r u) (hk : pk.kind = 1) (ht : s.Replayed log)
    (source : String) (challenge : Bytes) : ∃ reply, s.datagram (pk.encode key) source t challenge = .ok reply ∧
      ((Contact.told pk.cid key .unknown log).Awaits source pk.payload t s.config.udpChallengeTtlMs →
        reply.events = [.spent pk.cid key pk.sequence, .proven pk.cid key source pk.payload t] ∧
          (s.Answerable t c u →
            reply.packets = [(source, Udp.encode key 4 pk.cid (u.outgoing + 1) nilAddress pk.payload)])) ∧
      (¬ (Contact.told pk.cid key .unknown log).Awaits source pk.payload t s.config.udpChallengeTtlMs →
        reply.events = [.spent pk.cid key pk.sequence] ∧ reply.packets = []) := by
  obtain ⟨replay, -, hd⟩ := h.datagram hmac source challenge
  dsimp only at hd
  rw [if_neg (by rw [hk]; decide), if_pos hk] at hd
  have hiff : proves { u with replay := replay } source t s.config.udpChallengeTtlMs pk.payload = true ↔
      u.contact.Awaits source pk.payload t s.config.udpChallengeTtlMs := by
    unfold proves
    rw [Option.any_eq_true]
    constructor
    · rintro ⟨⟨a, x, t₀⟩, hu, hok⟩
      obtain ⟨rfl, hle, rfl⟩ := of_decide_eq_true hok
      exact ⟨t₀, hu, hle⟩
    · rintro ⟨t₀, hu, hle⟩
      exact ⟨(source, pk.payload, t₀), hu, decide_eq_true ⟨rfl, hle, rfl⟩⟩
  rw [← h.contact ht, ← hiff]
  unfold confirm at hd
  refine ⟨_, hd, fun hp => ?_, fun hp => ?_⟩
  · rw [if_pos hp]
    refine ⟨?_, fun ha => ?_⟩
    · show [_, Udp.Event.proven pk.cid u.secret source pk.payload t] = _
      rw [h.signed]
    · rw [← h.signed]
      exact answer_answered (by exact ha) source 4 pk.payload
  · rw [if_neg hp]
    exact ⟨rfl, rfl⟩

/-- **A game packet is relayed exactly if it comes from the session's endpoint**, proven or refreshed in time. -/
theorem Arrives.relayed {s : Server} {log : List Udp.Event} {key sender : Bytes} {t : Nat} {pk : Packet} {c : Connection}
    {p : Player} {r : Room} {u : Udp.Session} (h : s.Arrives key t pk c p r u) (hk : pk.kind = 2) (ht : s.Replayed log)
    (ho : s.OwnConnections) (hs : parseUuid p.id = some sender) (source : String) (challenge : Bytes) :
    ∃ reply, s.datagram (pk.encode key) source t challenge = .ok reply ∧
      ((Contact.told pk.cid key .unknown log).Reached source t s.config.udpEndpointTtlMs →
        reply.packets = (s.peers p r pk.address t).map (fun x =>
          (x.address, Udp.encode x.session.secret 5 x.cid (x.session.outgoing + 1) sender pk.payload))) ∧
      (¬ (Contact.told pk.cid key .unknown log).Reached source t s.config.udpEndpointTtlMs → reply.packets = []) := by
  rw [← h.contact ht]
  by_cases he : u.contact.Reached source t s.config.udpEndpointTtlMs
  · have hcid : Udp.connectionOf (pk.encode key) = pk.cid := Server.connectionOf_encode _ _ _ _ _ pk.cid_lt
    have hseq : sequenceOf (pk.encode key) = pk.sequence := Server.sequenceOf_encode _ _ _ _ _ pk.sequence_lt
    have hrel : s.Relays (pk.encode key) source t c p r u :=
      { kind := hk
        shaped := (Packet.shaped_encode hmac s.config key pk).2 h.allowed
        bearer := by rw [hcid]; exact h.bearer
        authentic := by rw [h.signed]; exact authentic_encode hmac _ _ _ _ _ _
        fresh := by rw [hseq]; exact h.fresh
        budget := h.budget
        endpoint := he }
    obtain ⟨reply, hreply, hpackets, -⟩ := relayed_to_peers ho hrel hs challenge
    refine ⟨reply, hreply, fun _ => ?_, fun hne => absurd he hne⟩
    rw [hpackets, Packet.payloadOf_encode hmac,
      show targetOf (pk.encode key) = pk.address from Server.targetOf_encode _ _ _ _ _ pk.length_address]
  · obtain ⟨replay, -, hd⟩ := h.datagram hmac source challenge
    dsimp only at hd
    rw [if_neg (by rw [hk]; decide), if_neg (by rw [hk]; decide)] at hd
    have hnone : ¬ u.endpoint.any (fun x => decide (x.1 = source ∧ t - x.2 ≤ s.config.udpEndpointTtlMs)) = true := by
      intro hany
      obtain ⟨⟨a, t₀⟩, hu, hok⟩ := (Option.any_eq_true _ _).1 hany
      obtain ⟨rfl, hle⟩ := of_decide_eq_true hok
      exact he ⟨t₀, hu, hle⟩
    unfold relayPacket at hd
    rw [if_neg hnone] at hd
    exact ⟨_, hd, fun hr => absurd hr he, fun _ => rfl⟩

end Arriving


/-- **A datagram session is the replay of its log.**  In every state of every run, what a session knows of its client (its
window, the challenge under way, its endpoint) is what the log of the run tells of its connection and key.  A confirmation
that arrives proves its source exactly if the log tells of a challenge under way that was sent there, with these bytes, in
time; a game packet that arrives goes to the sender's peers exactly if the log tells that its source is the endpoint,
proven or refreshed in time; otherwise neither is answered. -/
theorem sessions_are_told {config : Config} {store : Store} {push : Bool} {is : List Input} {log : List Udp.Event}
    {s : Server} (h : Serves (boot config store push) is log s)
    (hmac : ∀ key body, (Extern.hmacSha256 key body).length = 32) :
    (∀ cid u, s.udpOf cid = some u → u.contact = Contact.told cid u.secret .unknown log) ∧
    ∀ key t pk c p r u source challenge, s.Arrives key t pk c p r u →
      (pk.kind = 1 → ∃ reply, s.datagram (pk.encode key) source t challenge = .ok reply ∧
        ((Contact.told pk.cid key .unknown log).Awaits source pk.payload t config.udpChallengeTtlMs →
          reply.events = [.spent pk.cid key pk.sequence, .proven pk.cid key source pk.payload t] ∧
            (s.Answerable t c u →
              reply.packets = [(source, Udp.encode key 4 pk.cid (u.outgoing + 1) nilAddress pk.payload)])) ∧
        (¬ (Contact.told pk.cid key .unknown log).Awaits source pk.payload t config.udpChallengeTtlMs →
          reply.events = [.spent pk.cid key pk.sequence] ∧ reply.packets = [])) ∧
      (pk.kind = 2 → ∀ sender, parseUuid p.id = some sender →
        ∃ reply, s.datagram (pk.encode key) source t challenge = .ok reply ∧
          ((Contact.told pk.cid key .unknown log).Reached source t config.udpEndpointTtlMs →
            reply.packets = (s.peers p r pk.address t).map (fun x =>
              (x.address, Udp.encode x.session.secret 5 x.cid (x.session.outgoing + 1) sender pk.payload))) ∧
          (¬ (Contact.told pk.cid key .unknown log).Reached source t config.udpEndpointTtlMs → reply.packets = [])) := by
  have hb := h.base (boot_base config store push)
  have hc : s.config = config := hb.config
  have ht : s.Replayed log := Replayed.run h (boot_base config store push) (.boot config store push)
  refine ⟨ht, fun key t pk c p r u source challenge ha => ⟨fun hk => ?_, fun hk sender hs => ?_⟩⟩
  · rw [← hc]
    exact ha.confirmed hmac hk ht source challenge
  · rw [← hc]
    exact ha.relayed hmac hk ht h.ownConnections hs source challenge

omit [Extern] in
/-- The first account has proven its address. -/
theorem sessions_are_told_confirm :
    letI := Trace.tagging [Trace.signUp, Trace.createRoom, Trace.openUdp]
    ∃ log s u, Serves (boot Trace.withUdp .empty false) (Trace.sending [Trace.packet 0 1 (List.replicate 16 0),
        Trace.packet 1 2 (List.replicate 16 5)]) log s ∧ s.udpOf 1 = some u ∧
      u.endpoint = some ("192.0.2.1:9", 2) ∧ (Contact.told 1 u.secret .unknown log).endpoint = u.endpoint := by
  let _ := Trace.tagging [Trace.signUp, Trace.createRoom, Trace.openUdp]
  have h : (serveAll (Trace.sending [Trace.packet 0 1 (List.replicate 16 0), Trace.packet 1 2 (List.replicate 16 5)]) []
      (boot Trace.withUdp .empty false)).any
      (fun x => decide (((x.2.udpOf 1).map (·.endpoint)) = some (some ("192.0.2.1:9", 2)))) = true := by
    decide +kernel
  obtain ⟨⟨log, s⟩, hs, ha⟩ := (Option.any_eq_true _ _).1 h
  obtain ⟨u, hu, hep⟩ := Option.map_eq_some_iff.1 (of_decide_eq_true ha)
  have hrun := serveAll_serves .refl hs
  obtain ⟨htold, -⟩ := sessions_are_told hrun (fun _ _ => List.length_replicate)
  exact ⟨log, s, u, hrun, hu, hep, (congrArg Contact.endpoint (htold 1 u hu)).symm⟩

end Server

namespace Trace

open Server

/-- Two members open sessions, and the second proves its address. -/
def awaited : List Input :=
  (shared ++ [(Env.plain 1, Command.tells 1 openUdp), (Env.plain 1, Command.tells 2 openUdp)]).map
      (fun x => .command x.1 x.2) ++
    [.datagram (packetOf 2 0 1 (List.replicate 16 0)) "192.0.2.2:9" 2 (List.replicate 16 5),
      .datagram (packetOf 2 1 2 (List.replicate 16 5)) "192.0.2.2:9" 2 (List.replicate 16 6)]

/-- A packet of the first connection to everyone. -/
def toAll (kind : UInt8) (n : Fin 8) (payload : Bytes) : Packet :=
  ⟨kind, 1, n, nilAddress, payload, by decide, by omega, rfl⟩

/-- The packet arrives at a session of this key, which can answer. -/
def arrives (s : Server) (key : Bytes) (t : Nat) (pk : Packet) : Bool :=
  (s.bearer pk.cid).any (fun x => decide (x.2.2.2.secret = key) && (x.2.2.2.replay.accept pk.sequence).isSome &&
    (x.1.udpIncomingRate.accept t s.config.udpIncomingPacketsPerSecond).2 &&
    (x.1.udpOutgoingRate.accept t s.config.udpOutgoingPacketsPerSecond).2 && decide (x.2.2.2.outgoing + 1 < 2 ^ 64) &&
    decide (s.config = withUdp) && (parseUuid x.2.1.id).isSome)

theorem arrives_spec {s : Server} {key : Bytes} {t : Nat} {pk : Packet} (h : arrives s key t pk = true)
    (ha : pk.Allowed withUdp) : ∃ c p r u, s.Arrives key t pk c p r u ∧ s.Answerable t c u ∧ (parseUuid p.id).isSome := by
  obtain ⟨⟨c, p, r, u⟩, hb, h⟩ := (Option.any_eq_true _ _).1 h
  simp only [Bool.and_eq_true, decide_eq_true_eq] at h
  obtain ⟨⟨⟨⟨⟨⟨hkey, hfresh⟩, hin⟩, hout⟩, hcount⟩, hconf⟩, hid⟩ := h
  exact ⟨c, p, r, u, ⟨hconf ▸ ha, hb, hkey, hfresh, hin⟩, ⟨hout, hcount⟩, hid⟩

end Trace

namespace Server

end Server
end Relay
