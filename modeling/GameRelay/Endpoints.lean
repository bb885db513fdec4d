import GameRelay.Replays
/-!
# Endpoints — where datagrams are sent

A session's endpoint is the address that proved itself by a challenge sent to it.  `Handshakes` is what every run keeps
of its log; `Handshake` is the law of the log itself.
-/
namespace Relay

open Udp Server

/-- The event is a challenge or a proof of this session. -/
def Udp.Event.shakes (cid : Nat) (key : Bytes) : Udp.Event → Bool
  | .challenged c k _ _ _ | .proven c k _ _ _ => decide (c = cid ∧ k = key)
  | _ => false

def Udp.Event.time : Udp.Event → Option Nat
  | .challenged _ _ _ _ t | .proven _ _ _ _ t | .refreshed _ _ _ t => some t
  | _ => none

/-- The challenge was sent to the source at this time, and is the session's last. -/
def Pending (log : List Udp.Event) (cid : Nat) (key : Bytes) (source : String) (challenge : Bytes) (t : Nat) : Prop :=
  ∃ pre post, log = pre ++ .challenged cid key source challenge t :: post ∧ ∀ e ∈ post, e.shakes cid key = false

/-- The session was proven or refreshed from the source at this time. -/
def Refreshed (log : List Udp.Event) (cid : Nat) (key : Bytes) (source : String) (t : Nat) : Prop :=
  .refreshed cid key source t ∈ log ∨ ∃ challenge, .proven cid key source challenge t ∈ log

/-- **The law of handshakes**: a proof answers the session's last challenge, from its source and in time; a packet is
relayed from a source that was proven or refreshed in time. -/
structure Handshake (c : Config) (pre : List Udp.Event) (e : Udp.Event) : Prop where
  proven : ∀ cid key source challenge t, e = .proven cid key source challenge t →
    ∃ t₀, Pending pre cid key source challenge t₀ ∧ t₀ ≤ t ∧ t ≤ t₀ + c.udpChallengeTtlMs
  refreshed : ∀ cid key source t, e = .refreshed cid key source t →
    (∃ challenge t₀, .proven cid key source challenge t₀ ∈ pre) ∧
    ∃ t₀, Refreshed pre cid key source t₀ ∧ t₀ ≤ t ∧ t ≤ t₀ + c.udpEndpointTtlMs

/-- What every run keeps of its log. -/
structure Handshakes (c : Config) (log : List Udp.Event) (s : Server) : Prop where
  challenge : ∀ cid u source challenge t, s.udpOf cid = some u → u.challenge = some (source, challenge, t) →
    Pending log cid u.secret source challenge t
  endpoint : ∀ cid u source t, s.udpOf cid = some u → u.endpoint = some (source, t) →
    (∃ challenge t₀, .proven cid u.secret source challenge t₀ ∈ log) ∧ Refreshed log cid u.secret source t
  law : Ledger (Handshake c) log

theorem Pending.append {log es : List Udp.Event} {cid : Nat} {key : Bytes} {source : String} {challenge : Bytes} {t : Nat}
    (h : Pending log cid key source challenge t) (hes : ∀ e ∈ es, e.shakes cid key = false) :
    Pending (log ++ es) cid key source challenge t := by
  obtain ⟨pre, post, rfl, hp⟩ := h
  refine ⟨pre, post ++ es, by simp, fun e he => ?_⟩
  exact (List.mem_append.1 he).elim (hp e) (hes e)

theorem Refreshed.append {log : List Udp.Event} (es : List Udp.Event) {cid : Nat} {key : Bytes} {source : String}
    {t : Nat} (h : Refreshed log cid key source t) : Refreshed (log ++ es) cid key source t :=
  h.imp (List.mem_append_left es) (fun ⟨c, hc⟩ => ⟨c, List.mem_append_left es hc⟩)

theorem Handshake.free {c : Config} {pre : List Udp.Event} {e : Udp.Event} (hp : ∀ cid key a x t, e ≠ .proven cid key a x t)
    (hr : ∀ cid key a t, e ≠ .refreshed cid key a t) : Handshake c pre e :=
  ⟨fun cid key a x t h => absurd h (hp cid key a x t), fun cid key a t h => absurd h (hr cid key a t)⟩

namespace Handshakes

variable {c : Config} {log : List Udp.Event} {s s' : Server}

/-- A new session has neither challenge nor endpoint. -/
theorem command [Extern] {env : Env} {cmd : Command} {config : Config} (h : Handshakes c log s)
    (hb : s.world.Base config) (hs : s.step env cmd = some s') : Handshakes c (log ++ s.opens s') s' := by
  have quiet : ∀ {cid key}, ∀ e ∈ s.opens s', e.shakes cid key = false := by
    intro cid key e he
    obtain ⟨_, _, rfl⟩ := opens_opened he
    rfl
  have old : ∀ {cid u}, s'.udpOf cid = some u → s.udpOf cid = some u ∨ (u.challenge = none ∧ u.endpoint = none) := by
    intro cid u hu
    rcases step_udp hb hs cid with he | he | ⟨key, version, he⟩
    · exact .inl (he ▸ hu)
    · rw [hu] at he; cases he
    · rw [hu] at he; cases he; exact .inr ⟨rfl, rfl⟩
  refine ⟨fun cid u source challenge t hu hc => ?_, fun cid u source t hu he => ?_,
    h.law.append_free (fun e he pre => ?_)⟩
  · rcases old hu with hu | ⟨hn, -⟩
    · exact (h.challenge cid u source challenge t hu hc).append quiet
    · rw [hn] at hc; cases hc
  · rcases old hu with hu | ⟨-, hn⟩
    · obtain ⟨⟨x, t₀, hp⟩, hr⟩ := h.endpoint cid u source t hu he
      exact ⟨⟨x, t₀, List.mem_append_left _ hp⟩, hr.append _⟩
    · rw [hn] at he; cases he
  · obtain ⟨_, _, rfl⟩ := opens_opened he
    exact .free (fun _ _ _ _ _ h => nomatch h) (fun _ _ _ _ h => nomatch h)

/-- The session `v` takes the place of `u`: what it has is told by the longer log. -/
theorem touched {es : List Udp.Event} {cid : Nat} {u v : Udp.Session} (h : Handshakes c log s)
    (ht : s.Touches s' cid v) (hv : v.secret = u.secret) (hes : ∀ e ∈ es, ∀ x key, e.shakes x key = true → x = cid)
    (hc : ∀ source challenge t, v.challenge = some (source, challenge, t) →
      Pending (log ++ es) cid u.secret source challenge t)
    (he : ∀ source t, v.endpoint = some (source, t) →
      (∃ challenge t₀, .proven cid u.secret source challenge t₀ ∈ log ++ es) ∧ Refreshed (log ++ es) cid u.secret source t)
    (hlaw : Ledger (Handshake c) (log ++ es)) : Handshakes c (log ++ es) s' := by
  have quiet : ∀ {x key}, x ≠ cid → ∀ e ∈ es, e.shakes x key = false := fun hx e hm =>
    Bool.eq_false_iff.2 (fun hsh => hx (hes e hm _ _ hsh))
  have other : ∀ {x u'}, x ≠ cid → s'.udpOf x = some u' → ∃ u₀, s.udpOf x = some u₀ ∧ u'.secret = u₀.secret ∧
      u'.challenge = u₀.challenge ∧ u'.endpoint = u₀.endpoint := by
    intro x u' hx hu'
    rcases ht.others x hx with hs | ⟨u₀, n, hu₀, hn⟩
    · exact ⟨u', hs ▸ hu', rfl, rfl, rfl⟩
    · rw [hn] at hu'; cases hu'; exact ⟨u₀, hu₀, rfl, rfl, rfl⟩
  obtain ⟨n, hn⟩ := ht.own
  refine ⟨fun x u' source challenge t hu' hc' => ?_, fun x u' source t hu' he' => ?_, hlaw⟩
  · by_cases hx : x = cid
    · subst hx
      rw [hn] at hu'
      cases hu'
      show Pending _ x v.secret source challenge t
      rw [hv]
      exact hc source challenge t hc'
    · obtain ⟨u₀, hu₀, hsec, hch, -⟩ := other hx hu'
      rw [hsec]
      exact (h.challenge x u₀ source challenge t hu₀ (hch ▸ hc')).append (quiet hx)
  · by_cases hx : x = cid
    · subst hx
      rw [hn] at hu'
      cases hu'
      show (∃ challenge t₀, Udp.Event.proven x v.secret source challenge t₀ ∈ log ++ es) ∧
        Refreshed (log ++ es) x v.secret source t
      rw [hv]
      exact he source t he'
    · obtain ⟨u₀, hu₀, hsec, -, hep⟩ := other hx hu'
      rw [hsec]
      obtain ⟨⟨y, t₀, hp⟩, hr⟩ := h.endpoint x u₀ source t hu₀ (hep ▸ he')
      exact ⟨⟨y, t₀, List.mem_append_left _ hp⟩, hr.append _⟩

/-- **A datagram keeps the law**, when no event of the log is later than it. -/
theorem received [Extern] {b : Bytes} {source : String} {t : Nat} {challenge : Bytes} {r : Reply}
    (h : Handshakes c log s) (hconf : s.config = c) (htime : ∀ e ∈ log, ∀ x, e.time = some x → x ≤ t)
    (hr : Received s b source t challenge r) : Handshakes c (log ++ r.events) r.server := by
  cases hr with
  | ignored => rw [List.append_nil]; exact h
  | dropped ha ht =>
    rename_i u replay s'
    refine h.touched ht rfl (fun e he x key hsh => ?_) (fun a x y hc => ?_) (fun a x hep => ?_) ?_
    · rw [List.mem_singleton.1 he] at hsh; cases hsh
    · exact (h.challenge _ u a x y ha.session hc).append (fun e he => by rw [List.mem_singleton.1 he]; rfl)
    · obtain ⟨⟨y, t₀, hp⟩, hr⟩ := h.endpoint _ u a x ha.session hep
      exact ⟨⟨y, t₀, List.mem_append_left _ hp⟩, hr.append _⟩
    · exact h.law.append_free (fun e he pre => by
        rw [List.mem_singleton.1 he]
        exact .free (fun _ _ _ _ _ h => nomatch h) (fun _ _ _ _ h => nomatch h))
  | challenged ha hk ht hp =>
    rename_i u replay s' packets
    refine h.touched ht rfl (fun e he x key hsh => ?_) (fun a x y hc => ?_) (fun a x hep => ?_) ?_
    · rcases List.mem_cons.1 he with rfl | he
      · cases hsh
      · rw [List.mem_singleton.1 he] at hsh
        exact (of_decide_eq_true hsh).1.symm
    · cases hc
      exact ⟨log ++ [.spent (Udp.connectionOf b) u.secret (sequenceOf b)], [], by simp, fun e he => nomatch he⟩
    · obtain ⟨⟨y, t₀, hp⟩, hr⟩ := h.endpoint _ u a x ha.session hep
      exact ⟨⟨y, t₀, List.mem_append_left _ hp⟩, hr.append _⟩
    · refine h.law.append_free (fun e he pre => ?_)
      rcases List.mem_cons.1 he with rfl | he
      · exact .free (fun _ _ _ _ _ h => nomatch h) (fun _ _ _ _ h => nomatch h)
      · rw [List.mem_singleton.1 he]
        exact .free (fun _ _ _ _ _ h => nomatch h) (fun _ _ _ _ h => nomatch h)
  | proven ha hk hc ht hp =>
    rename_i u replay s' packets
    obtain ⟨⟨a, x, t₀⟩, hch, hok⟩ := (Option.any_eq_true _ _).1 hc
    obtain ⟨rfl, hle, rfl⟩ := of_decide_eq_true hok
    -- the challenge it answers is the last
    have hpend := h.challenge _ u _ _ t₀ ha.session hch
    refine h.touched ht rfl (fun e he x key hsh => ?_) (fun a x y hc => nomatch hc) (fun a x hep => ?_) ?_
    · rcases List.mem_cons.1 he with rfl | he
      · cases hsh
      · rw [List.mem_singleton.1 he] at hsh
        exact (of_decide_eq_true hsh).1.symm
    · cases hep
      exact ⟨⟨_, _, List.mem_append_right _ (List.mem_cons_of_mem _ (List.mem_singleton_self _))⟩,
        .inr ⟨_, List.mem_append_right _ (List.mem_cons_of_mem _ (List.mem_singleton_self _))⟩⟩
    · rw [← List.singleton_append, ← List.append_assoc]
      refine Ledger.snoc_iff.2 ⟨h.law.append_free (fun e he pre => ?_), ⟨fun cid key a x y he => ?_, fun _ _ _ _ he => nomatch he⟩⟩
      · rw [List.mem_singleton.1 he]
        exact .free (fun _ _ _ _ _ h => nomatch h) (fun _ _ _ _ h => nomatch h)
      · cases he
        obtain ⟨pre, post, hlog, -⟩ := id hpend
        have hle' : t₀ ≤ t := htime _ (by rw [hlog]; exact List.mem_append_right _ (List.mem_cons_self ..)) t₀ rfl
        rw [hconf] at hle
        change t - t₀ ≤ _ at hle
        exact ⟨t₀, hpend.append (fun e he => by rw [List.mem_singleton.1 he]; rfl), hle', by omega⟩
  | refreshed ha hk he ht hp =>
    rename_i u replay s' packets
    obtain ⟨⟨a, t₀⟩, hep, hok⟩ := (Option.any_eq_true _ _).1 he
    obtain ⟨rfl, hle⟩ := of_decide_eq_true hok
    obtain ⟨⟨y, t₁, hproof⟩, hfresh⟩ := h.endpoint _ u _ t₀ ha.session hep
    have hle' : t₀ ≤ t := by
      rcases hfresh with hm | ⟨x, hm⟩
      · exact htime _ hm t₀ rfl
      · exact htime _ hm t₀ rfl
    refine h.touched ht rfl (fun e he x key hsh => ?_) (fun a x y hc => ?_) (fun a x hep' => ?_) ?_
    · rcases List.mem_cons.1 he with rfl | he
      · cases hsh
      · rw [List.mem_singleton.1 he] at hsh; cases hsh
    · refine (h.challenge _ u a x y ha.session hc).append (fun e he => ?_)
      rcases List.mem_cons.1 he with rfl | he
      · rfl
      · rw [List.mem_singleton.1 he]; rfl
    · cases hep'
      refine ⟨⟨y, t₁, List.mem_append_left _ hproof⟩, .inl (List.mem_append_right _ ?_)⟩
      exact List.mem_cons_of_mem _ (List.mem_singleton_self _)
    · rw [← List.singleton_append, ← List.append_assoc]
      refine Ledger.snoc_iff.2 ⟨h.law.append_free (fun e he pre => ?_), ⟨(fun _ _ _ _ _ he => nomatch he), fun cid key a x he => ?_⟩⟩
      · rw [List.mem_singleton.1 he]
        exact .free (fun _ _ _ _ _ h => nomatch h) (fun _ _ _ _ h => nomatch h)
      · cases he
        rw [hconf] at hle
        change t - t₀ ≤ _ at hle
        exact ⟨⟨y, t₁, List.mem_append_left _ hproof⟩, t₀, hfresh.append _, hle', by omega⟩

theorem boot (c config : Config) (store : Store) (push : Bool) : Handshakes c [] (Server.boot config store push) :=
  ⟨(fun _ _ _ _ _ h => nomatch h), (fun _ _ _ _ h => nomatch h), Ledger.nil⟩

/-- Every event of a log is of one of the inputs. -/
theorem timed [Extern] {is : List Input} (h : Serves s is log s') :
    ∀ e ∈ log, ∀ x, e.time = some x → ∃ i ∈ is, i.time = x := by
  induction h with
  | refl => exact fun e he => nomatch he
  | tail _ hi ih =>
    rename_i is i log t r _
    intro e he x hx
    rcases List.mem_append.1 he with he | he
    · obtain ⟨j, hj, hjx⟩ := ih e he x hx
      exact ⟨j, List.mem_append_left _ hj, hjx⟩
    · refine ⟨i, List.mem_append_right _ (List.mem_singleton_self i), ?_⟩
      cases i with
      | command env c =>
        obtain ⟨t', -, rfl⟩ := Option.map_eq_some_iff.1 hi
        obtain ⟨_, _, rfl⟩ := opens_opened he
        cases hx
      | datagram b source now challenge =>
        have hr := Out.all_of_state (datagram_received t b source now challenge) hi
        show now = x
        cases hr with
        | ignored => cases he
        | dropped ha ht => rw [List.mem_singleton.1 he] at hx; cases hx
        | challenged ha hk ht hp =>
          rcases List.mem_cons.1 he with rfl | he
          · cases hx
          · rw [List.mem_singleton.1 he] at hx; cases hx; rfl
        | proven ha hk hc ht hp =>
          rcases List.mem_cons.1 he with rfl | he
          · cases hx
          · rw [List.mem_singleton.1 he] at hx; cases hx; rfl
        | refreshed ha hk hep ht hp =>
          rcases List.mem_cons.1 he with rfl | he
          · cases hx
          · rw [List.mem_singleton.1 he] at hx; cases hx; rfl

/-- **Every run whose times do not go back keeps them.** -/
theorem run [Extern] {config : Config} {store : Store} {push : Bool} {is : List Input}
    (h : Serves (Server.boot config store push) is log s) (htimes : (is.map Input.time).Pairwise (· ≤ ·)) :
    Handshakes config log s := by
  induction h with
  | refl => exact .boot config config store push
  | tail hprev hi ih =>
    rename_i is i log t r
    rw [List.map_append, List.pairwise_append] at htimes
    have ht := ih htimes.1
    have hb := hprev.base (boot_base config store push)
    cases i with
    | command env c =>
      obtain ⟨t', ht', rfl⟩ := Option.map_eq_some_iff.1 hi
      exact ht.command hb ht'
    | datagram b source now challenge =>
      refine ht.received hb.config (fun e he x hx => ?_)
        (Out.all_of_state (datagram_received t b source now challenge) hi)
      obtain ⟨j, hj, rfl⟩ := timed hprev e he x hx
      exact htimes.2.2 _ (List.mem_map_of_mem hj) now (List.mem_singleton_self _)

end Handshakes

namespace Server

variable [Extern]

theorem length_encode {secret : Bytes} {kind : UInt8} {cid sequence : Nat} {address payload : Bytes}
    (hmac : ∀ key body, (Extern.hmacSha256 key body).length = 32) (ha : address.length = 16) :
    (encode secret kind cid sequence address payload).length = payload.length + 69 := by
  unfold encode
  dsimp only
  rw [List.length_append, hmac]
  simp [magic, u64Bytes, u32Bytes, ha]
  omega

omit [Extern] in
theorem shaped_length {c : Config} {b : Bytes} (h : shaped c b = true) (hk : kindOf b ≠ 2) :
    b.length = 85 ∧ (payloadOf b).length = 16 := by
  unfold shaped at h
  rw [if_neg hk] at h
  simp only [Bool.and_eq_true, decide_eq_true_eq] at h
  have hlen : (payloadOf b).length = 16 := h.1.2
  have h69 := h.1.1.1.1
  unfold payloadOf at hlen
  rw [List.length_take, List.length_drop] at hlen
  refine ⟨by omega, ?_⟩
  unfold payloadOf
  rw [List.length_take, List.length_drop]
  exact hlen

omit [Extern] in
/-- The address of a session's endpoint. -/
def addressOf (u : Udp.Session) : Option String := u.endpoint.map (·.1)

omit [Extern] in
theorem reachable_address {u : Udp.Session} {t ttl : Nat} {a : String} (h : reachable u t ttl = some a) :
    addressOf u = some a ∧ ∃ t₀, u.endpoint = some (a, t₀) ∧ t - t₀ ≤ ttl := by
  obtain ⟨⟨a', t₀⟩, hf, rfl⟩ := Option.map_eq_some_iff.1 h
  obtain ⟨he, hok⟩ := Option.filter_eq_some_iff.1 hf
  exact ⟨by unfold addressOf; rw [he]; rfl, t₀, he, of_decide_eq_true hok⟩

/-- A packet of kind 2 leaves every endpoint where it is. -/
theorem Received.address {s : Server} {b : Bytes} {source : String} {t : Nat} {challenge : Bytes} {r : Reply}
    (h : Received s b source t challenge r) (hk : kindOf b = 2) (cid : Nat) :
    (r.server.udpOf cid).map (fun u => (u.secret, addressOf u)) = (s.udpOf cid).map (fun u => (u.secret, addressOf u)) := by
  have touched : ∀ {u v : Udp.Session} {s' : Server}, s.udpOf (Udp.connectionOf b) = some u →
      s.Touches s' (Udp.connectionOf b) v → v.secret = u.secret → addressOf v = addressOf u →
      (s'.udpOf cid).map (fun u => (u.secret, addressOf u)) = (s.udpOf cid).map (fun u => (u.secret, addressOf u)) := by
    intro u v s' hu ht hv ha
    by_cases hc : cid = Udp.connectionOf b
    · obtain ⟨n, hn⟩ := ht.own
      rw [hc, hn, hu]
      show some (v.secret, addressOf v) = some (u.secret, addressOf u)
      rw [hv, ha]
    · rcases ht.others cid hc with hs | ⟨u₀, n, hu₀, hn⟩
      · rw [hs]
      · rw [hn, hu₀]; rfl
  cases h with
  | ignored => rfl
  | dropped ha ht => exact touched ha.session ht rfl rfl
  | challenged ha hk' => rw [hk] at hk'; cases hk'
  | proven ha hk' => rw [hk] at hk'; cases hk'
  | refreshed ha hk' he ht hp =>
    obtain ⟨⟨a, t₀⟩, hep, hok⟩ := (Option.any_eq_true _ _).1 he
    obtain ⟨rfl, -⟩ := of_decide_eq_true hok
    refine touched ha.session ht rfl ?_
    unfold addressOf
    rw [hep]
    rfl

/-- **Endpoints are proven before use.**  In every run whose times do not go back: each proof of an address answers the
last challenge its session sent there, in time, and a session with an endpoint has such a proof of it; each relayed
packet comes from an address proven or refreshed in time.  A game packet moves no endpoint and goes only to endpoints
proven so and refreshed in time; a handshake is answered by at most one packet, to its source, that is no longer. -/
theorem endpoints_are_proven {config : Config} {store : Store} {push : Bool} {is : List Input} {log : List Udp.Event}
    {s : Server} (h : Serves (boot config store push) is log s) (htimes : (is.map Input.time).Pairwise (· ≤ ·))
    (hmac : ∀ key body, (Extern.hmacSha256 key body).length = 32) :
    Ledger (Handshake config) log ∧
    (∀ cid u source t, s.udpOf cid = some u → u.endpoint = some (source, t) →
      (∃ challenge t₀, .proven cid u.secret source challenge t₀ ∈ log) ∧ Refreshed log cid u.secret source t) ∧
    ∀ b source t challenge r, challenge.length = 16 → (s.datagram b source t challenge).state = some r →
      (kindOf b = 2 → (∀ cid, (r.server.udpOf cid).map (fun u => (u.secret, addressOf u)) =
          (s.udpOf cid).map (fun u => (u.secret, addressOf u))) ∧
        (r.packets ≠ [] → ∃ u t₀, s.udpOf (Udp.connectionOf b) = some u ∧ u.endpoint = some (source, t₀) ∧
          t - t₀ ≤ config.udpEndpointTtlMs) ∧
        ∀ x ∈ r.packets, ∃ cid u t₀, r.server.udpOf cid = some u ∧ u.endpoint = some (x.1, t₀) ∧
          t - t₀ ≤ config.udpEndpointTtlMs ∧ ∃ challenge t₁, .proven cid u.secret x.1 challenge t₁ ∈ log) ∧
      (kindOf b ≠ 2 → r.packets.length ≤ 1 ∧ ∀ x ∈ r.packets, x.1 = source ∧ x.2.length ≤ b.length) := by
  have hs := Handshakes.run h htimes
  have hconf : s.config = config := (h.base (boot_base config store push)).config
  refine ⟨hs.law, hs.endpoint, fun b source t challenge r hlen hr => ?_⟩
  have hrec := Out.all_of_state (datagram_received s b source t challenge) hr
  refine ⟨fun hk => ⟨hrec.address hk, fun hne => ?_, fun x hx => ?_⟩, fun hk => ?_⟩
  · cases hrec with
    | ignored => exact absurd rfl hne
    | dropped ha ht => exact absurd rfl hne
    | challenged ha hk' => rw [hk] at hk'; cases hk'
    | proven ha hk' => rw [hk] at hk'; cases hk'
    | refreshed ha hk' he ht hp =>
      obtain ⟨⟨a, t₀⟩, hep, hok⟩ := (Option.any_eq_true _ _).1 he
      obtain ⟨rfl, hle⟩ := of_decide_eq_true hok
      exact ⟨_, t₀, ha.session, hep, hconf ▸ hle⟩
  · have haddr := hrec.address hk
    have hpk : ∃ cid v, r.server.udpOf cid = some v ∧ reachable v t s.config.udpEndpointTtlMs = some x.1 := by
      cases hrec with
      | ignored => cases hx
      | dropped ha ht => cases hx
      | challenged ha hk' => rw [hk] at hk'; cases hk'
      | proven ha hk' => rw [hk] at hk'; cases hk'
      | refreshed ha hk' he ht hp => exact hp x hx
    obtain ⟨cid, v, hv, hreach⟩ := hpk
    obtain ⟨hav, t₀, hep, hin⟩ := reachable_address hreach
    -- the endpoint was there before the packet
    have hold := haddr cid
    rw [hv] at hold
    obtain ⟨u, hu, he⟩ := Option.map_eq_some_iff.1 hold.symm
    cases he' : u.endpoint with
    | none =>
      have := congrArg Prod.snd he
      rw [show (u.secret, addressOf u).2 = addressOf u from rfl, addressOf, he'] at this
      rw [show (v.secret, addressOf v).2 = addressOf v from rfl, hav] at this
      cases this
    | some y =>
      have hy : y.1 = x.1 := by
        have := congrArg Prod.snd he
        rw [show (u.secret, addressOf u).2 = addressOf u from rfl, addressOf, he'] at this
        rw [show (v.secret, addressOf v).2 = addressOf v from rfl, hav] at this
        exact Option.some.inj this
      obtain ⟨hproof, -⟩ := hs.endpoint cid u y.1 y.2 hu he'
      rw [hy, show u.secret = v.secret from congrArg Prod.fst he] at hproof
      exact ⟨cid, v, t₀, hv, hep, hconf ▸ hin, hproof⟩
  · have one : ∀ {packets : List (String × Bytes)} {secret payload : Bytes} {kind : UInt8}, payload.length = 16 →
        b.length = 85 → (packets = [] ∨ ∃ n, packets = [(source, encode secret kind (Udp.connectionOf b) n nilAddress payload)]) →
        packets.length ≤ 1 ∧ ∀ x ∈ packets, x.1 = source ∧ x.2.length ≤ b.length := by
      rintro packets secret payload kind hp hb (rfl | ⟨n, rfl⟩)
      · exact ⟨Nat.zero_le _, fun x hx => nomatch hx⟩
      · refine ⟨Nat.le_refl _, fun x hx => ?_⟩
        rw [List.mem_singleton.1 hx]
        refine ⟨rfl, ?_⟩
        show (encode _ _ _ _ _ _).length ≤ _
        rw [length_encode hmac rfl, hp, hb]
    cases hrec with
    | ignored => exact ⟨Nat.zero_le _, fun x hx => nomatch hx⟩
    | dropped ha ht => exact ⟨Nat.zero_le _, fun x hx => nomatch hx⟩
    | challenged ha hk' ht hp => exact one hlen (shaped_length ha.shaped hk).1 hp
    | proven ha hk' hc ht hp => exact one (shaped_length ha.shaped hk).2 (shaped_length ha.shaped hk).1 hp
    | refreshed ha hk' => exact absurd hk' hk

omit [Extern] in
theorem endpoints_are_proven_confirm :
    letI := Trace.tagging [Trace.signUp, Trace.createRoom, Trace.openUdp]
    ∃ log s, Serves (boot Trace.withUdp .empty false) (Trace.sending [Trace.packet 0 1 (List.replicate 16 0),
        Trace.packet 1 2 (List.replicate 16 5)]) log s ∧ Ledger (Handshake Trace.withUdp) log ∧
      ∃ u challenge t₀, s.udpOf 1 = some u ∧ u.endpoint = some ("192.0.2.1:9", 2) ∧
        .proven 1 u.secret "192.0.2.1:9" challenge t₀ ∈ log := by
  let _ := Trace.tagging [Trace.signUp, Trace.createRoom, Trace.openUdp]
  have h : (serveAll (Trace.sending [Trace.packet 0 1 (List.replicate 16 0), Trace.packet 1 2 (List.replicate 16 5)]) []
      (boot Trace.withUdp .empty false)).any
      (fun x => decide (((x.2.udpOf 1).map (·.endpoint)) = some (some ("192.0.2.1:9", 2)))) = true := by
    decide +kernel
  obtain ⟨⟨log, s⟩, hs, ha⟩ := (Option.any_eq_true _ _).1 h
  obtain ⟨u, hu, hep⟩ := Option.map_eq_some_iff.1 (of_decide_eq_true ha)
  have hrun := serveAll_serves .refl hs
  obtain ⟨hlaw, hend, -⟩ := endpoints_are_proven hrun (by decide) (fun _ _ => rfl)
  obtain ⟨⟨challenge, t₀, hp⟩, -⟩ := hend 1 u _ _ hu hep
  exact ⟨log, s, hrun, hlaw, u, challenge, t₀, hu, hep, hp⟩

end Server
end Relay
