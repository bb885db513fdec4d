import GameRelay.Tallies
import GameRelay.Posts
/-!
# Backlog — the delay queue and its counters

`Accounted q s`: with the frames `q` still to come, no connection's counters are below what `q` holds of it, and those of
an open one are exactly that.  A sweep gives each frame back from a queue that is `Accounted`; hence **the counters are
exact and no subtraction saturates** (`delay_queue_is_accounted`).
-/
namespace Relay

namespace Server

/-- The delayed frames of a connection. -/
def backlog (q : List Delayed) (cid : Nat) : List Delayed := q.filter (fun d => decide (d.cid = cid))

def backlogSize (q : List Delayed) (cid : Nat) : Nat := ((backlog q cid).map (·.size)).sum

theorem backlog_perm {q q' : List Delayed} (h : q.Perm q') (cid : Nat) :
    backlogSize q cid = backlogSize q' cid ∧ (backlog q cid).length = (backlog q' cid).length := by
  have hp : (backlog q cid).Perm (backlog q' cid) := h.filter _
  exact ⟨(hp.map _).sum_nat, hp.length_eq⟩

theorem backlog_cons (d : Delayed) (q : List Delayed) (cid : Nat) :
    backlogSize (d :: q) cid = (if d.cid = cid then d.size else 0) + backlogSize q cid ∧
      (backlog (d :: q) cid).length = (if d.cid = cid then 1 else 0) + (backlog q cid).length := by
  unfold backlogSize backlog
  by_cases h : d.cid = cid
  · rw [List.filter_cons_of_pos (by simpa using h), if_pos h, if_pos h, List.map_cons, List.sum_cons, List.length_cons]
    exact ⟨rfl, Nat.add_comm _ _⟩
  · rw [List.filter_cons_of_neg (by simpa using h), if_neg h, if_neg h, Nat.zero_add, Nat.zero_add]
    exact ⟨rfl, rfl⟩

theorem backlog_filter (keep : Nat → Bool) (q : List Delayed) (cid : Nat) :
    backlog (q.filter (fun d => keep d.cid)) cid = if keep cid then backlog q cid else [] := by
  unfold backlog
  rw [List.filter_filter]
  split
  · rename_i hk
    refine List.filter_congr (fun d _ => ?_)
    by_cases h : d.cid = cid
    · rw [h, hk, Bool.and_true]
    · rw [decide_eq_false h, Bool.false_and]
  · rename_i hk
    refine List.filter_eq_nil_iff.2 (fun d _ h => hk ?_)
    rw [Bool.and_eq_true, decide_eq_true_eq] at h
    exact h.1 ▸ h.2

/-- **The frames to come are accounted for.** -/
structure Accounted (q : List Delayed) (s : Server) : Prop where
  held : ∀ d ∈ q, ∃ c id, s.connections.get d.cid = some c ∧ c.player = some id
  enough : ∀ {cid c}, s.connections.get cid = some c → backlogSize q cid ≤ c.delayed ∧ (backlog q cid).length ≤ c.pending
  exact : ∀ {cid c}, s.connections.get cid = some c → c.closing = false →
    c.delayed = backlogSize q cid ∧ c.pending = (backlog q cid).length
  bounded : ∀ {cid c}, s.connections.get cid = some c →
    c.delayed ≤ s.config.maxBufferedBytes ∧ c.pending ≤ s.config.maxMessagesPerSecond

namespace Accounted

variable {q : List Delayed} {s t : Server}

theorem perm {q' : List Delayed} (h : Accounted q s) (hp : q.Perm q') : Accounted q' s := by
  refine ⟨fun d hd => h.held d (hp.mem_iff.2 hd), fun {cid c} hc => ?_, fun {cid c} hc ho => ?_, h.bounded⟩
  · rw [← (backlog_perm hp cid).1, ← (backlog_perm hp cid).2]
    exact h.enough hc
  · rw [← (backlog_perm hp cid).1, ← (backlog_perm hp cid).2]
    exact h.exact hc ho

/-- **A step that leaves the counters alone**, up to connections that are closed and lose their frames. -/
theorem counts (keep : Nat → Bool) (h : Accounted q s) (hc : s.Counts t)
    (hheld : ∀ d ∈ q, keep d.cid = true → ∃ c id, t.connections.get d.cid = some c ∧ c.player = some id)
    (hp : ∀ cid, keep cid = false → ∀ c, t.connections.get cid = some c → c.closing = true) :
    Accounted (q.filter (fun d => keep d.cid)) t := by
  refine ⟨fun d hd => ?_, fun {cid c'} hx => ?_, fun {cid c'} hx ho => ?_, fun {cid c'} hx => ?_⟩
  · obtain ⟨hd, hk⟩ := List.mem_filter.1 hd
    exact hheld d hd hk
  · obtain ⟨c, hget, hd, hn, -⟩ := hc.connections hx
    obtain ⟨hsize, hlen⟩ := h.enough hget
    rw [backlogSize, backlog_filter, hd, hn]
    split
    · exact ⟨hsize, hlen⟩
    · exact ⟨Nat.zero_le _, Nat.zero_le _⟩
  · obtain ⟨c, hget, hd, hn, hopen⟩ := hc.connections hx
    have hk : keep cid = true := by
      by_contra hno
      have hclosed := hp cid (Bool.eq_false_iff.2 hno) c' hx
      rw [ho] at hclosed
      cases hclosed
    rw [backlogSize, backlog_filter, if_pos hk, hd, hn]
    exact h.exact hget (hopen ho)
  · obtain ⟨c, hget, hd, hn, -⟩ := hc.connections hx
    rw [hc.config, hd, hn]
    exact h.bounded hget

theorem holds {keep : Nat → Bool} (h : Accounted q s) (hh : s.Holds keep t) :
    ∀ d ∈ q, keep d.cid = true → ∃ c id, t.connections.get d.cid = some c ∧ c.player = some id := fun d hd hk => by
  obtain ⟨c, id, hget, hid⟩ := h.held d hd
  obtain ⟨c', hget', hid'⟩ := hh.bound hk hget hid
  exact ⟨c', id, hget', hid'⟩

/-- No connection goes. -/
theorem stay (h : Accounted q s) (hc : s.Counts t)
    (hheld : ∀ d ∈ q, ∃ c id, t.connections.get d.cid = some c ∧ c.player = some id) : Accounted q t := by
  have hall := h.counts (fun _ => true) hc (fun d hd _ => hheld d hd) (fun _ hn => nomatch hn)
  rwa [List.filter_true] at hall

/-- **A frame leaves the queue**: no subtraction saturates. -/
theorem unqueue {d : Delayed} {c : Connection} (h : Accounted (d :: q) s) (hc : s.connections.get d.cid = some c) :
    d.size ≤ c.delayed ∧ 1 ≤ c.pending ∧ Accounted q (s.setConnection d.cid (Server.unqueue d c)) := by
  obtain ⟨hsize, hlen⟩ := h.enough hc
  have hcons := backlog_cons d q d.cid
  rw [if_pos rfl, if_pos rfl] at hcons
  rw [hcons.1] at hsize
  rw [hcons.2] at hlen
  have hother : ∀ {x : Nat}, x ≠ d.cid → backlogSize (d :: q) x = backlogSize q x ∧
      (backlog (d :: q) x).length = (backlog q x).length := fun {x} hx => by
    have hx' := backlog_cons d q x
    rw [if_neg (Ne.symm hx), if_neg (Ne.symm hx), Nat.zero_add, Nat.zero_add] at hx'
    exact hx'
  refine ⟨by omega, by omega, ⟨fun e he => ?_, fun {x k} hx => ?_, fun {x k} hx ho => ?_, fun {x k} hx => ?_⟩⟩
  · obtain ⟨c', id, hget, hid⟩ := h.held e (List.mem_cons_of_mem _ he)
    rw [setConnection, IndexMap.get_insert]
    split
    · rename_i hx
      rw [hx, hc] at hget
      cases hget
      exact ⟨_, id, rfl, hid⟩
    · exact ⟨c', id, hget, hid⟩
  · rw [setConnection, IndexMap.get_insert] at hx
    split at hx
    · rename_i he
      cases hx
      subst he
      show backlogSize q d.cid ≤ c.delayed - d.size ∧ _ ≤ c.pending - 1
      omega
    · rename_i hne
      rw [← (hother hne).1, ← (hother hne).2]
      exact h.enough hx
  · rw [setConnection, IndexMap.get_insert] at hx
    split at hx
    · rename_i he
      cases hx
      subst he
      obtain ⟨hd, hn⟩ := h.exact hc ho
      show c.delayed - d.size = _ ∧ c.pending - 1 = _
      rw [hcons.1] at hd
      rw [hcons.2] at hn
      omega
    · rename_i hne
      rw [← (hother hne).1, ← (hother hne).2]
      exact h.exact hx ho
  · rw [setConnection, IndexMap.get_insert] at hx
    split at hx
    · cases hx
      obtain ⟨hd, hn⟩ := h.bounded hc
      exact ⟨Nat.le_trans (Nat.sub_le _ _) hd, Nat.le_trans (Nat.sub_le _ _) hn⟩
    · exact h.bounded hx

/-- A new connection has no frames. -/
theorem connected {env : Env} {cid : Nat} (h : Accounted q s) (hn : s.connections.get cid = none) :
    Accounted q (s.connected env cid) := by
  have hne : ∀ d ∈ q, d.cid ≠ cid := by
    rintro d hd rfl
    obtain ⟨c, id, hc, -⟩ := h.held d hd
    rw [hn] at hc
    cases hc
  have hnil : backlog q cid = [] := List.filter_eq_nil_iff.2 (fun d hd he => hne d hd (of_decide_eq_true he))
  have hget : ∀ {x k}, (s.connected env cid).connections.get x = some k →
      (x = cid ∧ k.delayed = 0 ∧ k.pending = 0) ∨ s.connections.get x = some k := by
    intro x k hx
    rw [Server.connected, setConnection, IndexMap.get_insert] at hx
    split at hx
    · rename_i he
      cases hx
      exact .inl ⟨he, rfl, rfl⟩
    · exact .inr hx
  refine ⟨fun d hd => ?_, fun {x k} hx => ?_, fun {x k} hx ho => ?_, fun {x k} hx => ?_⟩
  · obtain ⟨c, id, hc, hid⟩ := h.held d hd
    refine ⟨c, id, ?_, hid⟩
    rw [Server.connected, setConnection, IndexMap.get_insert, if_neg (hne d hd)]
    exact hc
  · rcases hget hx with ⟨rfl, hd, hp⟩ | hx
    · rw [backlogSize, hnil, hd, hp]
      exact ⟨Nat.le_refl _, Nat.le_refl _⟩
    · exact h.enough hx
  · rcases hget hx with ⟨rfl, hd, hp⟩ | hx
    · rw [backlogSize, hnil, hd, hp]
      exact ⟨rfl, rfl⟩
    · exact h.exact hx ho
  · rcases hget hx with ⟨rfl, hd, hp⟩ | hx
    · rw [hd, hp]
      exact ⟨Nat.zero_le _, Nat.zero_le _⟩
    · exact h.bounded hx

end Accounted

/-! A sweep. -/

variable [Extern]

/-- A turn of a frame that is due. -/
theorem turn_accounted {env : Env} {q : List Delayed} {s t : Server} {d : Delayed} (h : Accounted (d :: q) s)
    (ht : s.turn env d = .ok t) : Accounted q t := by
  obtain ⟨c, id, hc, hid⟩ := h.held d List.mem_cons_self
  obtain ⟨-, -, hu⟩ := h.unqueue hc
  unfold turn at ht
  rw [hc] at ht
  dsimp only at ht
  split at ht
  · have hbound : ((s.setConnection d.cid (unqueue d c)).connections.get d.cid).bind (·.player) = some id := by
      rw [setConnection, IndexMap.get_insert_self]
      exact hid
    have hstate : ((s.setConnection d.cid (unqueue d c)).dispatch env d.cid d.frame none).state = some t := by rw [ht]; rfl
    have hemits := Out.all_of_state (dispatch_emits env _ d.cid d.frame none hbound) hstate
    exact hu.stay (Out.all_of_state (counts_dispatch env _ d.cid d.frame none) hstate)
      (fun e he => hu.holds (Emits.isCalm hemits).holds e he rfl)
  · obtain rfl := Out.ok.inj ht
    exact hu

/-- **The frames of a sweep**, those before `rest`. -/
theorem runDelayed_accounted {env : Env} (rest : List Delayed) : ∀ (ds : List Delayed) {s t : Server},
    Accounted (s.delayed ++ (ds ++ rest)) s → runDelayed env ds s = .ok t → Accounted (t.delayed ++ rest) t
  | [], s, t, h, ht => by
    obtain rfl := Out.ok.inj ht
    exact h
  | d :: ds, s, t, h, ht => by
    rw [runDelayed_cons] at ht
    split at ht
    · refine runDelayed_accounted rest ds (s := { s with delayed := s.delayed ++ [d] }) ?_ ht
      have hq : s.delayed ++ [d] ++ (ds ++ rest) = s.delayed ++ (d :: ds ++ rest) := by
        rw [List.append_assoc, List.singleton_append, List.cons_append]
      exact hq ▸ ⟨h.held, h.enough, h.exact, h.bounded⟩
    · have hmiddle : Accounted (d :: (s.delayed ++ (ds ++ rest))) s := h.perm List.perm_middle
      cases hu : s.turn env d with
      | ok u =>
        rw [hu] at ht
        have hcalm := turn_calm env s d
        rw [hu] at hcalm
        refine runDelayed_accounted rest ds ?_ ht
        rw [Calm.delayed hcalm]
        exact turn_accounted hmiddle hu
      | err u => rw [hu] at ht; cases ht
      | halt _ => rw [hu] at ht; cases ht

/-- What follows the delayed frames of a sweep. -/
theorem sweep_counts {env : Env} {s t : Server} (h : (s.sweep env).state = some t) :
    ∃ u, runDelayed env s.delayed { s with delayed := [] } = .ok u ∧ u.Counts t := by
  obtain ⟨⟨u, hu⟩, -⟩ := sweep_queue h
  unfold sweep at h
  rw [hu] at h
  change (Out.andThen (u.sweepRooms env) _).state = some t at h
  refine ⟨u, hu, Out.all_of_state (P := u.Counts) ?_ h⟩
  refine Out.all_andThen (counts_sweepRooms env u) (fun v hv => ?_) (fun _ hv => hv)
  have hconn := counts_sweepConnections env v.connections.keys v false
  generalize sweepConnections env v.connections.keys v false = o at hconn
  cases o with
  | ok x =>
    obtain ⟨w, heartbeat⟩ := x
    have hw : u.Counts w := hv.trans hconn
    refine Counts.trans ?_ (counts_expire _ env.now)
    cases heartbeat
    · exact hw
    · exact hw.trans (.foldl (fun s r => counts_broadcast s r none none) _ w)
  | err x => exact hv.trans hconn
  | halt _ => trivial

/-! Received frames. -/

/-- The frame was queued and counted. -/
structure Queues (s : Server) (cid : Nat) (frame : Frame) (t : Server) : Prop where
  delayed : ∃ d, t.delayed = s.delayed ++ [d] ∧ d.cid = cid ∧ d.size = frame.len
  pushes : t.legacyPushes = s.legacyPushes ∧ t.pushesInFlight = s.pushesInFlight
  connection : ∃ c c', s.connections.get cid = some c ∧
    (∀ x, t.connections.get x = if x = cid then some c' else s.connections.get x) ∧ c'.delayed = c.delayed + frame.len ∧
    c'.pending = c.pending + 1 ∧ c'.closing = c.closing ∧ c'.delayed ≤ s.config.maxBufferedBytes ∧
    c'.pending ≤ s.config.maxMessagesPerSecond

/-- **A received frame is queued and counted, or leaves the counters alone.** -/
theorem receive_counts (env : Env) (s : Server) (cid : Nat) (frame : Frame) :
    (s.receive env cid frame).All (fun t => s.Counts t ∨ s.Queues cid frame t) := by
  unfold receive
  split
  · exact .inl (.refl s)
  rename_i c hc
  split
  · exact .inl (.refl s)
  dsimp only
  have hcount : s.Counts (s.setConnection cid (countFrame c env.now)) := .setConnection hc rfl rfl id
  have hsubmit : ∀ p roomScoped immediate parsed,
      ((s.setConnection cid (countFrame c env.now)).submit env cid p frame roomScoped immediate parsed).All
        (fun t => s.Counts t ∨ s.Queues cid frame t) := by
    intro p roomScoped immediate parsed
    unfold submit
    split
    · refine Out.all_unwrap (fun c₁ hc₁ => ?_)
      rw [setConnection, IndexMap.get_insert_self] at hc₁
      cases hc₁
      refine Out.all_ite (fun _ => .inl (hcount.trans (counts_close _ cid _ _))) (fun hfree => ?_)
      refine Out.all_unwrap (fun a _ => .inr ⟨⟨_, rfl, rfl, rfl⟩, ⟨rfl, rfl⟩, c,
        { countFrame c env.now with delayed := c.delayed + frame.len, pending := c.pending + 1 }, hc, fun x => ?_, rfl, rfl,
        rfl, ?_, ?_⟩)
      · show ((s.connections.insert cid _).insert cid _).get x = _
        rw [IndexMap.get_insert, IndexMap.get_insert]
        split <;> rfl
      · exact Nat.le_of_not_lt (fun hlt => hfree (.inl hlt))
      · exact Nat.lt_of_not_le (fun hle => hfree (.inr hle))
    · exact (counts_dispatch env _ cid frame parsed).mono (fun t ht => .inl (hcount.trans ht))
  refine Out.all_ite (fun _ => .inl (hcount.trans (counts_close _ cid _ _))) (fun _ => ?_)
  cases frame with
  | ping b => exact .inl (hcount.trans (counts_raw _ cid))
  | pong b => exact .inl hcount
  | text txt =>
    refine Out.all_ite (fun _ => .inl (hcount.trans (counts_close _ cid _ _))) (fun _ => ?_)
    unfold receiveText
    split
    · exact .inl (hcount.trans (counts_error _ cid _))
    rename_i v _
    refine Out.all_ite (fun _ => .inl (hcount.trans (counts_error _ cid _))) (fun _ => ?_)
    refine Out.all_ite (fun _ => .inl (hcount.trans (counts_error _ cid _))) (fun _ => Out.all_unwrap (fun m _ => ?_))
    split
    · refine Out.all_ite (fun _ => ?_) (fun _ => .inl (hcount.trans (counts_error _ cid _)))
      refine reportErr_all (counts_auth env _ cid _) (fun t ht => .inl (hcount.trans ht)) (fun t ht => ?_)
      exact .inl (hcount.trans (ht.trans (counts_error t cid _)))
    · exact Out.all_ite (fun _ => .inl (hcount.trans (counts_error _ cid _))) (fun _ => hsubmit _ _ _ _)
  | binary b =>
    refine Out.all_ite (fun _ => .inl (hcount.trans (counts_close _ cid _ _))) (fun _ => ?_)
    split
    · exact .inl (hcount.trans (counts_error _ cid _))
    · exact Out.all_ite (fun _ => .inl (hcount.trans (counts_error _ cid _))) (fun _ => hsubmit _ _ _ _)

/-! Runs. -/

omit [Extern] in
/-- The step of a receipt that queues its frame. -/
theorem Accounted.queues {env : Env} {s t : Server} {cid : Nat} {frame : Frame} {d : Delayed} (h : Accounted s.delayed s)
    (hq : s.Queues cid frame t) (ht : s.Takes env cid frame d t) (hconf : t.config = s.config) : Accounted t.delayed t := by
  obtain ⟨e, he, hcid, hsize⟩ := hq.delayed
  have hd : d = e := by
    have hlast := ht.delayed.symm.trans he
    exact (List.singleton_inj.1 (List.append_cancel_left hlast))
  subst hd
  obtain ⟨c, c', hc, hget, hdel, hpen, hclose, hbytes, hframes⟩ := hq.connection
  refine Accounted.perm (q := d :: s.delayed) ?_ (by rw [he]; exact (List.perm_append_singleton d s.delayed).symm)
  have hcons := backlog_cons d s.delayed
  refine ⟨List.forall_mem_cons.2 ⟨?_, fun f hf => ?_⟩, fun {x k} hx => ?_, fun {x k} hx ho => ?_, fun {x k} hx => ?_⟩
  · obtain ⟨c₀, id, a, hc₀, -, hid, -⟩ := ht.sender
    obtain ⟨c₁, hc₁, hp₁⟩ := ht.bound hc₀
    exact ⟨c₁, id, hcid ▸ hc₁, hp₁.trans hid⟩
  · obtain ⟨c₀, id, hc₀, hid⟩ := h.held f hf
    obtain ⟨c₁, hc₁, hp₁⟩ := ht.bound hc₀
    exact ⟨c₁, id, hc₁, hp₁.trans hid⟩
  · rw [hget] at hx
    rw [(hcons x).1, (hcons x).2, hcid]
    split at hx
    · rename_i hxc
      cases hx
      subst hxc
      obtain ⟨hs, hl⟩ := h.enough hc
      rw [if_pos rfl, if_pos rfl, hsize, hdel, hpen]
      omega
    · rename_i hxc
      rw [if_neg (Ne.symm hxc), if_neg (Ne.symm hxc), Nat.zero_add, Nat.zero_add]
      exact h.enough hx
  · rw [hget] at hx
    rw [(hcons x).1, (hcons x).2, hcid]
    split at hx
    · rename_i hxc
      cases hx
      subst hxc
      obtain ⟨hs, hl⟩ := h.exact hc (hclose ▸ ho)
      rw [if_pos rfl, if_pos rfl, hsize, hdel, hpen]
      omega
    · rename_i hxc
      rw [if_neg (Ne.symm hxc), if_neg (Ne.symm hxc), Nat.zero_add, Nat.zero_add]
      exact h.exact hx ho
  · rw [hget] at hx
    rw [hconf]
    split at hx
    · cases hx
      exact ⟨hbytes, hframes⟩
    · exact h.bounded hx

/-- **A command leaves the counters alone**, except where it takes or gives back delayed frames. -/
theorem command_counts {env : Env} {s t : Server} {c : Command} (hc : c ≠ .sweep) (h : s.step env c = some t) :
    (∃ cid, c = .connected cid ∧ s.connections.get cid = none ∧ t = s.connected env cid) ∨ s.Counts t ∨
      ∃ cid frame, c = .receive cid frame ∧ s.Queues cid frame t := by
  cases c with
  | connected cid =>
    simp only [step] at h
    split at h
    · cases h
    · rename_i hn
      cases h
      exact .inl ⟨cid, rfl, IndexMap.contains_eq_false.1 (Bool.eq_false_iff.2 hn), rfl⟩
  | receive cid frame =>
    rcases Out.all_of_state (receive_counts env s cid frame) h with h | h
    · exact .inr (.inl h)
    · exact .inr (.inr ⟨cid, frame, rfl, h⟩)
  | disconnect cid => exact .inr (.inl (Out.all_of_state (counts_disconnect env s cid) h))
  | sweep => exact absurd rfl hc

/-- **Every step keeps the delay queue accounted for.** -/
theorem Accounted.step {env : Env} {s t : Server} {c : Command} {config : Config} (hb : s.world.Base config)
    (hb' : t.world.Base config) (h : Accounted s.delayed s) (hs : s.step env c = some t) : Accounted t.delayed t := by
  by_cases hc : c = .sweep
  · subst hc
    obtain ⟨u, hu, hcounts⟩ := sweep_counts hs
    have hrun := runDelayed_accounted [] s.delayed (s := { s with delayed := [] })
      (by rw [List.append_nil]; exact ⟨h.held, h.enough, h.exact, h.bounded⟩) hu
    rw [List.append_nil] at hrun
    obtain ⟨-, hqueue, hholds⟩ := sweep_queue hs
    have hud : u.delayed = t.delayed := by
      obtain ⟨-, hd, -⟩ := runDelayed_queue env s.delayed { s with delayed := [] } u (by rw [hu]; rfl)
      rw [hd, hqueue]
      rfl
    rw [← hud]
    refine hrun.stay hcounts (fun d hd => h.holds hholds d ?_ rfl)
    rw [hud, hqueue] at hd
    exact List.mem_of_mem_filter hd
  · obtain ⟨keep, new, hpass, hnew⟩ := command_passes hb.keyed hc hs
    rcases command_counts hc hs with ⟨cid, rfl, hn, rfl⟩ | hcounts | ⟨cid, frame, rfl, hq⟩
    · exact h.connected hn
    · rcases hnew with rfl | ⟨-, d, rfl, -, htakes⟩
      · rw [hpass.delayed, List.append_nil]
        exact h.counts keep hcounts (h.holds hpass.toHolds) hpass.purged
      · have hle := hcounts.delayed.length_le
        rw [htakes.delayed, List.length_append, List.length_singleton] at hle
        omega
    · rcases hnew with rfl | ⟨-, d, rfl, hd, htakes⟩
      · obtain ⟨e, he, -⟩ := hq.delayed
        have hlen := congrArg List.length (he.symm.trans hpass.delayed)
        have hle := List.length_filter_le (fun d => keep d.cid) s.delayed
        rw [List.length_append, List.length_singleton, List.append_nil] at hlen
        omega
      · obtain ⟨rfl, rfl⟩ := Command.receive.inj hd
        exact h.queues hq htakes (hb'.config.trans hb.config.symm)

theorem Accounted.run {G : Env → Server → Command → Prop} {config : Config} {store : Store} {push : Bool} {s : Server}
    (h : Run G (boot config store push) s) : Accounted s.delayed s := by
  induction h with
  | refl => exact ⟨(fun _ hd => nomatch hd), (fun hc => nomatch hc), (fun hc => nomatch hc), (fun hc => nomatch hc)⟩
  | tail h hs ih =>
    obtain ⟨env, c, hg, hs⟩ := hs
    have hb := Run.base h (boot_base config store push)
    exact ih.step hb (hb.chain (step_chain hb hs)) hs

/-- **The delay queue is accounted for in every reachable state**: an open connection's counters are those of its frames in
the queue, within the limits; and in a sweep no subtraction saturates. -/
theorem delay_queue_is_accounted {G : Env → Server → Command → Prop} {config : Config} {store : Store} {push : Bool}
    {s : Server} (h : Run G (boot config store push) s) :
    (∀ cid c, s.connections.get cid = some c → c.closing = false →
      let q := s.delayed.filter (fun d => decide (d.cid = cid))
      c.delayed = (q.map (·.size)).sum ∧ c.pending = q.length ∧
        (q.map (·.size)).sum ≤ config.maxBufferedBytes ∧ q.length ≤ config.maxMessagesPerSecond) ∧
    ∀ env pre d post t c, s.delayed = pre ++ d :: post → runDelayed env pre { s with delayed := [] } = .ok t →
      t.connections.get d.cid = some c → d.size ≤ c.delayed ∧ 1 ≤ c.pending := by
  have hacc := Accounted.run h
  have hconf : s.config = config := (Run.base h (boot_base config store push)).config
  refine ⟨fun cid c hc ho => ?_, fun env pre d post t c hq ht hc => ?_⟩
  · obtain ⟨hd, hp⟩ := hacc.exact hc ho
    obtain ⟨hbytes, hframes⟩ := hacc.bounded hc
    rw [hconf] at hbytes hframes
    exact ⟨hd, hp, (Nat.le_of_eq hd.symm).trans hbytes, (Nat.le_of_eq hp.symm).trans hframes⟩
  · have hrun := runDelayed_accounted (d :: post) pre (s := { s with delayed := [] })
      (by rw [List.nil_append, ← hq]; exact ⟨hacc.held, hacc.enough, hacc.exact, hacc.bounded⟩) ht
    obtain ⟨hd, hp, -⟩ := (hrun.perm List.perm_middle).unqueue hc
    exact ⟨hd, hp⟩

omit [Extern] in
/-- The request to open a room waits, and is counted. -/
theorem delay_queue_is_accounted_waiting :
    letI := Extern.reading [Trace.signUp, Trace.createRoom]
    ∃ s, Run (fun _ _ _ => True) (boot Trace.delaying .empty false) s ∧ ∃ c, s.connections.get 1 = some c ∧ c.pending = 1 ∧
      (s.delayed.filter (fun d => decide (d.cid = 1))).length = 1 := by
  let _ := Extern.reading [Trace.signUp, Trace.createRoom]
  have h : (exec (fun _ _ _ => true) Trace.opening (boot Trace.delaying .empty false)).any (fun s =>
      (s.connections.get 1).any (fun c => !c.closing && decide (c.pending = 1))) = true := by
    decide +kernel
  obtain ⟨s, hs, hany⟩ := (Option.any_eq_true _ _).1 h
  obtain ⟨c, hc, hopen⟩ := (Option.any_eq_true _ _).1 hany
  rw [Bool.and_eq_true, Bool.not_eq_true', decide_eq_true_eq] at hopen
  have hrun : Run (fun _ _ _ => True) (boot Trace.delaying .empty false) s := exec_run (fun _ _ _ _ => trivial) hs
  obtain ⟨-, hpending, -⟩ := (delay_queue_is_accounted hrun).1 1 c hc hopen.1
  exact ⟨s, hrun, c, hc, hopen.2, hpending.symm.trans hopen.2⟩

end Server
end Relay
