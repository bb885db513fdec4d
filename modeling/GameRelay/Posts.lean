import GameRelay.Delays
/-!
# Posts — delayed frames run in order, in the stay they were sent in

`Post` carries along what was received, what is queued and which frames had their turn, each with the state it had it in;
`Post.Sound` is what every run keeps of it.  Times are sorted in the queue, so **each connection's turns come in the order
of receipt**; and a queued frame's connection keeps its account, whose version tells one stay in a room from the next.
-/
namespace Relay

/-- A queued frame: which receipt it was, and the state that received it. -/
structure Note where
  number : Nat
  entry : Delayed
  state : Server

structure Post where
  server : Server
  queue : List Note
  received : List Note
  turns : List (Note × Server)

/-- The turns that led to an execution. -/
def Post.executed (x : Post) : List (Note × Server) := x.turns.filter (fun y => y.2.acts y.1.entry)

/-- The notes of one connection. -/
def ofConnection (cid : Nat) (ns : List Note) : List Note := ns.filter (fun n => decide (n.entry.cid = cid))

variable [Extern]

/-- The turns of a sweep. -/
def Server.turns (env : Env) : List Note → Server → List (Note × Server)
  | [], _ => []
  | n :: ns, s =>
    if env.now < n.entry.time then turns env ns { s with delayed := s.delayed ++ [n.entry] }
    else (n, s) :: match s.turn env n.entry with
      | .ok t => turns env ns t
      | _ => []

/-- The record after a command that leaves the state `t`. -/
def Post.after (x : Post) (env : Env) (t : Server) : Command → Post
  | .sweep => { x with
      server := t, queue := x.queue.filter (fun n => decide (env.now < n.entry.time))
      turns := x.turns ++ Server.turns env x.queue { x.server with delayed := [] } }
  | _ =>
    let new := (t.delayed.drop x.queue.length).map (fun d => ⟨x.received.length, d, x.server⟩)
    { x with
      server := t, queue := x.queue.filter (fun n => decide (n.entry ∈ t.delayed)) ++ new
      received := x.received ++ new }

/-- The runs of a server, with the record of its delayed frames. -/
inductive Posts (b : Server) : List (Env × Command) → Post → Prop
  | refl : Posts b [] ⟨b, [], [], []⟩
  | tail {l : List (Env × Command)} {x : Post} {env : Env} {c : Command} {t : Server} (h : Posts b l x)
      (hc : x.server.step env c = some t) : Posts b (l ++ [(env, c)]) (x.after env t c)

theorem Posts.run {b : Server} {l : List (Env × Command)} {x : Post} (h : Posts b l x) :
    Server.Run (fun _ _ _ => True) b x.server := by
  induction h with
  | refl => exact .refl
  | tail _ hc ih =>
    rename_i x env c t _
    refine ih.tail ⟨env, c, trivial, ?_⟩
    cases c <;> exact hc

/-- What the receipt of a frame says of its connection and account. -/
structure Note.Sent (n : Note) (id : String) (a : Player) : Prop where
  connection : ∃ c, n.state.connections.get n.entry.cid = some c ∧ c.closing = false ∧ c.player = some id
  account : n.state.players.get id = some a
  current : a.connection = some n.entry.cid
  version : a.version = n.entry.version

/-- A queued frame's connection still has the account, and where the connection is current, the account that kept its
version kept its room. -/
def Note.Held (n : Note) (s : Server) : Prop :=
  ∃ id a, n.Sent id a ∧ (∃ c, s.connections.get n.entry.cid = some c ∧ c.player = some id) ∧
    ∀ b, s.players.get id = some b → b.connection = some n.entry.cid →
      a.version ≤ b.version ∧ (b.version = a.version → b.room = a.room)

omit [Extern] in
theorem Note.Held.step {n : Note} {s t : Server} {keep : Nat → Bool} (h : n.Held s) (hs : s.Holds keep t)
    (hk : keep n.entry.cid = true) : n.Held t := by
  obtain ⟨id, a, hsent, ⟨c, hc, hid⟩, hacc⟩ := h
  refine ⟨id, a, hsent, hs.bound hk hc hid, fun b hb hcur => ?_⟩
  obtain ⟨b₀, hb₀, hcur₀, hv, hr⟩ := hs.players hk hc hid hb hcur
  obtain ⟨hv₀, hr₀⟩ := hacc b₀ hb₀ hcur₀
  exact ⟨Nat.le_trans hv₀ hv, fun he => (hr (by omega)).trans (hr₀ (by omega))⟩

omit [Extern] in
/-- In a list sorted by time, what is due comes first. -/
theorem due_append_later (now : Nat) : ∀ {ns : List Note}, (ns.map (·.entry.time)).Pairwise (· ≤ ·) →
    ns.filter (fun n => decide (n.entry.time ≤ now)) ++ ns.filter (fun n => decide (now < n.entry.time)) = ns
  | [], _ => rfl
  | n :: ns, h => by
    rw [List.map_cons, List.pairwise_cons] at h
    by_cases hn : n.entry.time ≤ now
    · rw [List.filter_cons_of_pos (by simpa using hn), List.filter_cons_of_neg (by simpa using hn), List.cons_append,
        due_append_later now h.2]
    · have hall : ∀ m ∈ n :: ns, now < m.entry.time := fun m hm => by
        rcases List.mem_cons.1 hm with rfl | hm
        · exact Nat.lt_of_not_le hn
        · exact Nat.lt_of_lt_of_le (Nat.lt_of_not_le hn) (h.1 _ (List.mem_map_of_mem hm))
      have hnone : (n :: ns).filter (fun n => decide (n.entry.time ≤ now)) = [] :=
        List.filter_eq_nil_iff.2 (fun m hm => by simpa using hall m hm)
      have hevery : (n :: ns).filter (fun n => decide (now < n.entry.time)) = n :: ns :=
        List.filter_eq_self.2 (fun m hm => by simpa using hall m hm)
      rw [hnone, hevery]
      rfl

/-- **Every due frame has its turn**, in the order of the queue. -/
theorem turns_due (env : Env) : ∀ (ns : List Note) (s t : Server),
    Server.runDelayed env (ns.map (·.entry)) s = .ok t →
    (Server.turns env ns s).map (·.1) = ns.filter (fun n => decide (n.entry.time ≤ env.now))
  | [], _, _, _ => rfl
  | n :: ns, s, t, h => by
    rw [List.map_cons, Server.runDelayed_cons] at h
    rw [Server.turns]
    split at h
    · rename_i hlt
      rw [if_pos hlt, List.filter_cons_of_neg (by simpa using hlt)]
      exact turns_due env ns _ t h
    · rename_i hdue
      rw [if_neg hdue, List.filter_cons_of_pos (by simpa using hdue), List.map_cons]
      cases hu : s.turn env n.entry with
      | ok u =>
        rw [hu] at h
        exact congrArg (n :: ·) (turns_due env ns u t h)
      | err u => rw [hu] at h; cases h
      | halt _ => rw [hu] at h; cases h

/-- What is current at a turn was so when the sweep began. -/
theorem turns_held (env : Env) {s : Server} : ∀ (ns : List Note) {t : Server}, s.Holds (fun _ => true) t →
    ∀ y ∈ Server.turns env ns t, y.1 ∈ ns ∧ s.Holds (fun _ => true) y.2
  | [], _, _, y, hy => nomatch hy
  | n :: ns, t, ht, y, hy => by
    rw [Server.turns] at hy
    split at hy
    · obtain ⟨hmem, hy⟩ := turns_held env ns (t := { t with delayed := t.delayed ++ [n.entry] }) ⟨ht.bound, ht.players⟩ y hy
      exact ⟨List.mem_cons_of_mem _ hmem, hy⟩
    · rcases List.mem_cons.1 hy with rfl | hy
      · exact ⟨List.mem_cons_self, ht⟩
      · have hcalm := Server.turn_calm env t n.entry
        generalize Server.turn env t n.entry = o at hcalm hy
        cases o with
        | ok u =>
          obtain ⟨hmem, hy⟩ := turns_held env ns (ht.trans_calm hcalm) y hy
          exact ⟨List.mem_cons_of_mem _ hmem, hy⟩
        | err u => cases hy
        | halt _ => cases hy

/-- **What every run keeps**, `delay` being the configured one and `times` those of the commands so far. -/
structure Post.Sound (delay : Nat) (times : List Nat) (x : Post) : Prop where
  entries : x.queue.map (·.entry) = x.server.delayed
  sorted : (x.queue.map (·.entry.time)).Pairwise (· ≤ ·)
  late : ∀ n ∈ x.queue, ∃ t ∈ times, n.entry.time ≤ t + delay
  numbers : ∀ (i : Nat) (n : Note), x.received[i]? = some n → n.number = i
  lined : ∀ cid, ∃ past, ofConnection cid x.received = past ++ ofConnection cid x.queue ∧
    (ofConnection cid (x.turns.map (·.1))).Sublist past
  queued : ∀ n ∈ x.queue, n.Held x.server
  turned : ∀ y ∈ x.turns, y.1.Held y.2
  sent : ∀ n ∈ x.received, ∃ id a, n.Sent id a

omit [Extern] in
theorem ofConnection_append (cid : Nat) (a b : List Note) : ofConnection cid (a ++ b) = ofConnection cid a ++ ofConnection cid b :=
  List.filter_append ..

omit [Extern] in
theorem ofConnection_filter (cid : Nat) (p : Note → Bool) (ns : List Note) :
    ofConnection cid (ns.filter p) = (ofConnection cid ns).filter p := by
  unfold ofConnection
  rw [List.filter_filter, List.filter_filter]
  exact List.filter_congr (fun n _ => Bool.and_comm _ _)

theorem Post.Sound.sweep {delay : Nat} {times : List Nat} {x : Post} {env : Env} {t : Server} (h : x.Sound delay times)
    (hs : x.server.step env .sweep = some t) : (x.after env t .sweep).Sound delay times := by
  obtain ⟨⟨u, hu⟩, hd, hholds⟩ := Server.sweep_queue hs
  rw [← h.entries] at hu
  have hdue := turns_due env x.queue _ u hu
  have hfirst := due_append_later env.now h.sorted
  have hstart : x.server.Holds (fun _ => true) { x.server with delayed := [] } :=
    ⟨fun {_ c _} _ hc hp => ⟨c, hc, hp⟩, fun {_ _ _ b} _ _ _ hb hk => ⟨b, hb, hk, Nat.le_refl _, fun _ => rfl⟩⟩
  refine ⟨?_, ?_, fun n hn => h.late n (List.mem_filter.1 hn).1, h.numbers, fun cid => ?_, fun n hn => ?_, fun y hy => ?_,
    h.sent⟩
  · show (x.queue.filter _).map _ = t.delayed
    rw [hd, ← h.entries, List.filter_map]
    rfl
  · exact h.sorted.sublist (List.filter_sublist.map _)
  · obtain ⟨past, hpast, hsub⟩ := h.lined cid
    refine ⟨past ++ ofConnection cid (x.queue.filter (fun n => decide (n.entry.time ≤ env.now))), ?_, ?_⟩
    · show ofConnection cid x.received = _ ++ ofConnection cid (x.queue.filter (fun n => decide (env.now < n.entry.time)))
      rw [hpast, List.append_assoc, ← ofConnection_append, hfirst]
    · show (ofConnection cid ((x.turns ++ Server.turns env x.queue _).map (·.1))).Sublist _
      rw [List.map_append, ofConnection_append, hdue]
      exact hsub.append_right _
  · exact (h.queued n (List.mem_filter.1 hn).1).step hholds rfl
  · rcases List.mem_append.1 hy with hy | hy
    · exact h.turned y hy
    · obtain ⟨hmem, hheld⟩ := turns_held env x.queue hstart y hy
      exact (h.queued y.1 hmem).step hheld rfl

omit [Extern] in
/-- Which notes a command other than a sweep leaves, and which it adds. -/
theorem Server.Passes.queue {s t : Server} {keep : Nat → Bool} {new : List Delayed} (h : s.Passes keep new t) {ns : List Note}
    (hns : ns.map (·.entry) = s.delayed) (hkeep : new = [] ∨ ∀ cid, keep cid = true) :
    ns.filter (fun n => decide (n.entry ∈ t.delayed)) = ns.filter (fun n => keep n.entry.cid) ∧ t.delayed.drop ns.length = new := by
  have hlen : ns.length = s.delayed.length := by rw [← hns, List.length_map]
  constructor
  · refine List.filter_congr (fun n hn => ?_)
    have hmem : n.entry ∈ s.delayed := hns ▸ List.mem_map_of_mem hn
    rw [h.delayed]
    cases hk : keep n.entry.cid with
    | true => exact decide_eq_true (List.mem_append_left _ (List.mem_filter.2 ⟨hmem, hk⟩))
    | false =>
      refine decide_eq_false (fun hm => ?_)
      rcases hkeep with rfl | hall
      · rw [List.append_nil] at hm
        rw [(List.mem_filter.1 hm).2] at hk
        cases hk
      · rw [hall] at hk
        cases hk
  · rw [h.delayed, hlen]
    rcases hkeep with rfl | hall
    · rw [List.append_nil]
      exact List.drop_eq_nil_of_le (List.length_filter_le _ _)
    · rw [List.filter_eq_self.2 (fun d _ => hall d.cid), List.drop_left]

omit [Extern] in
/-- A receipt makes a note. -/
theorem Server.Takes.sent {env : Env} {s t : Server} {d : Delayed} (h : s.Takes env d.cid d.frame d t) (number : Nat) :
    ∃ id a, Note.Sent ⟨number, d, s⟩ id a := by
  obtain ⟨c, id, a, hc, hopen, hid, ha, hcur, hv⟩ := h.sender
  exact ⟨id, a, ⟨c, hc, hopen, hid⟩, ha, hcur, hv⟩

theorem Post.Sound.step {config : Config} {times : List Nat} {x : Post} {env : Env} {c : Command} {t : Server}
    (h : x.Sound config.sendDelayMs times) (hk : x.server.world.Keyed) (hconf : x.server.config = config)
    (hs : x.server.step env c = some t) (htimes : ∀ u ∈ times, u ≤ env.now) :
    (x.after env t c).Sound config.sendDelayMs (times ++ [env.now]) := by
  have hmore : ∀ y : Post, y.Sound config.sendDelayMs times → y.Sound config.sendDelayMs (times ++ [env.now]) := fun y hy =>
    { hy with late := fun n hn => (hy.late n hn).imp (fun u hu => ⟨List.mem_append_left _ hu.1, hu.2⟩) }
  by_cases hc : c = .sweep
  · subst hc
    exact hmore _ (h.sweep hs)
  obtain ⟨keep, new, hpass, hnew⟩ := Server.command_passes hk hc hs
  obtain ⟨hleft, hadded⟩ := hpass.queue h.entries (hnew.imp_right (·.1))
  have hafter : x.after env t c = { x with
      server := t, queue := x.queue.filter (fun n => keep n.entry.cid) ++ new.map (fun d => ⟨x.received.length, d, x.server⟩)
      received := x.received ++ new.map (fun d => ⟨x.received.length, d, x.server⟩) } := by
    rw [← hleft, ← hadded]
    cases c
    case sweep => exact absurd rfl hc
    all_goals rfl
  rw [hafter]
  have hkept : ∀ n ∈ x.queue.filter (fun n => keep n.entry.cid), n ∈ x.queue ∧ keep n.entry.cid = true :=
    fun n hn => List.mem_filter.1 hn
  have hentries : (x.queue.filter (fun n => keep n.entry.cid)).map (·.entry) =
      x.server.delayed.filter (fun d => keep d.cid) := by
    rw [← h.entries, List.filter_map]
    rfl
  -- what stays of each connection's queue is all or nothing
  have hlined : ∀ cid, ∃ past, ofConnection cid x.received = past ++ ofConnection cid (x.queue.filter (fun n => keep n.entry.cid)) ∧
      (ofConnection cid (x.turns.map (·.1))).Sublist past := by
    intro cid
    obtain ⟨past, hpast, hsub⟩ := h.lined cid
    rw [ofConnection_filter]
    have hcid : ∀ n ∈ ofConnection cid x.queue, n.entry.cid = cid := fun n hn => of_decide_eq_true (List.mem_filter.1 hn).2
    cases hkc : keep cid with
    | true =>
      refine ⟨past, ?_, hsub⟩
      rw [List.filter_eq_self.2 (fun n hn => by rw [hcid n hn, hkc])]
      exact hpast
    | false =>
      refine ⟨past ++ ofConnection cid x.queue, ?_, hsub.trans (List.sublist_append_left _ _)⟩
      rw [List.filter_eq_nil_iff.2 (fun n hn => by rw [hcid n hn, hkc]; exact Bool.false_ne_true), List.append_nil]
      exact hpast
  rcases hnew with rfl | ⟨hall, d, rfl, hrec, htake⟩
  · simp only [List.map_nil, List.append_nil]
    refine hmore _ ⟨?_, h.sorted.sublist (List.filter_sublist.map _), fun n hn => h.late n (hkept n hn).1, h.numbers, hlined,
      fun n hn => (h.queued n (hkept n hn).1).step hpass.toHolds (hkept n hn).2, h.turned, h.sent⟩
    rw [hentries, hpass.delayed, List.append_nil]
  · obtain ⟨-, -, htime⟩ := htake.entry
    obtain ⟨id, a, hsent⟩ := htake.sent x.received.length
    rw [hconf] at htime
    have hlate : ∀ n ∈ x.queue, n.entry.time ≤ d.time := fun n hn => by
      obtain ⟨u, hu, hle⟩ := h.late n hn
      have := htimes u hu
      omega
    refine ⟨?_, ?_, fun n hn => ?_, fun i n hi => ?_, fun cid => ?_, fun n hn => ?_, h.turned, fun n hn => ?_⟩
    · rw [List.map_append, hentries, hpass.delayed]
      rfl
    · rw [List.map_append, List.pairwise_append]
      refine ⟨h.sorted.sublist (List.filter_sublist.map _), List.pairwise_singleton .., fun u hu v hv => ?_⟩
      obtain ⟨n, hn, rfl⟩ := List.mem_map.1 hu
      rw [List.mem_singleton.1 hv]
      exact hlate n (hkept n hn).1
    · rcases List.mem_append.1 hn with hn | hn
      · exact (h.late n (hkept n hn).1).imp (fun u hu => ⟨List.mem_append_left _ hu.1, hu.2⟩)
      · rw [List.mem_singleton.1 hn]
        exact ⟨env.now, List.mem_append_right _ (List.mem_singleton.2 rfl), Nat.le_of_eq htime⟩
    · by_cases hlt : i < x.received.length
      · rw [List.getElem?_append_left hlt] at hi
        exact h.numbers i n hi
      · rw [List.getElem?_append_right (Nat.le_of_not_lt hlt)] at hi
        have hn := List.mem_singleton.1 (List.mem_of_getElem? hi)
        obtain ⟨hzero, -⟩ := List.getElem?_eq_some_iff.1 hi
        rw [List.length_map, List.length_singleton] at hzero
        rw [hn]
        show x.received.length = i
        omega
    · obtain ⟨past, hpast, hsub⟩ := hlined cid
      refine ⟨past, ?_, hsub⟩
      rw [ofConnection_append, ofConnection_append, hpast, List.append_assoc]
    · rcases List.mem_append.1 hn with hn | hn
      · exact (h.queued n (hkept n hn).1).step hpass.toHolds (hkept n hn).2
      · rw [List.mem_singleton.1 hn]
        obtain ⟨c₀, hc₀, -, hid⟩ := hsent.connection
        refine ⟨id, a, hsent, hpass.bound (hall _) hc₀ hid, fun b hb hcur => ?_⟩
        rw [htake.players, hsent.account] at hb
        cases hb
        exact ⟨Nat.le_refl _, fun _ => rfl⟩
    · rcases List.mem_append.1 hn with hn | hn
      · exact h.sent n hn
      · rw [List.mem_singleton.1 hn]
        exact ⟨id, a, hsent⟩

theorem Posts.sound {config : Config} {store : Store} {push : Bool} {l : List (Env × Command)} {x : Post}
    (h : Posts (Server.boot config store push) l x) (htimes : (l.map (·.1.now)).Pairwise (· ≤ ·)) :
    x.Sound config.sendDelayMs (l.map (·.1.now)) := by
  induction h with
  | refl =>
    exact ⟨rfl, .nil, (fun _ hn => nomatch hn), (fun _ _ hi => nomatch hi), fun _ => ⟨[], rfl, .refl _⟩,
      (fun _ hn => nomatch hn), (fun _ hy => nomatch hy), (fun _ hn => nomatch hn)⟩
  | tail h hc ih =>
    rw [List.map_append, List.pairwise_append] at htimes
    have hb := h.run.base (Server.boot_base config store push)
    rw [List.map_append]
    exact (ih htimes.1).step hb.keyed hb.config hc (fun u hu => htimes.2.2 u hu _ (List.mem_singleton.2 rfl))

/-- **Delayed frames keep their order and their stay.**  In every run whose times do not go back: of the frames of one
connection, those executed and those still queued are receipts, in the order of receipt and each at most once; a queued
frame stays until a sweep gives it its turn, or its connection ends or closes; and a frame is executed only for an open
connection that is the current one of the account that sent it, a room-scoped one only under the membership version, and
so in the room, of its receipt. -/
theorem delayed_frames_keep_order {config : Config} {store : Store} {push : Bool} {l : List (Env × Command)} {x : Post}
    (h : Posts (Server.boot config store push) l x) (htimes : (l.map (·.1.now)).Pairwise (· ≤ ·)) :
    x.queue.map (·.entry) = x.server.delayed ∧ (∀ (i : Nat) n, x.received[i]? = some n → n.number = i) ∧
    (∀ cid, (ofConnection cid (x.executed.map (·.1) ++ x.queue)).Sublist (ofConnection cid x.received)) ∧
    (∀ env c t, x.server.step env c = some t →
      (∀ n ∈ x.queue, n ∈ (x.after env t c).queue ∨
        (c = .sweep ∧ n.entry.time ≤ env.now ∧ ∃ u, (n, u) ∈ Server.turns env x.queue { x.server with delayed := [] }) ∨
        ∀ k, t.connections.get n.entry.cid = some k → k.closing = true) ∧
      ∀ n ∈ (x.after env t c).received, n ∈ x.received ∨ c = .receive n.entry.cid n.entry.frame ∧ n.state = x.server ∧
        n.entry.time = env.now + config.sendDelayMs) ∧
    (∀ n ∈ x.queue, n.Held x.server) ∧
    ∀ y ∈ x.executed, ∃ id a b c, y.1.Sent id a ∧ y.2.connections.get y.1.entry.cid = some c ∧ c.closing = false ∧
      c.player = some id ∧ y.2.players.get id = some b ∧ b.connection = some y.1.entry.cid ∧
      (y.1.entry.roomScoped = true → b.version = a.version ∧ b.room = a.room) := by
  have hs := h.sound htimes
  have hb := h.run.base (Server.boot_base config store push)
  have hconf : x.server.config = config := hb.config
  refine ⟨hs.entries, hs.numbers, fun cid => ?_, fun env c t hc => ?_, hs.queued, fun y hy => ?_⟩
  · obtain ⟨past, hpast, hsub⟩ := hs.lined cid
    have hexec : (ofConnection cid (x.executed.map (·.1))).Sublist (ofConnection cid (x.turns.map (·.1))) :=
      (List.filter_sublist.map _).filter _
    rw [ofConnection_append, hpast]
    exact (hexec.trans hsub).append_right _
  · by_cases hsweep : c = .sweep
    · subst hsweep
      obtain ⟨⟨u, hu⟩, -, -⟩ := Server.sweep_queue hc
      rw [← hs.entries] at hu
      have hdue := turns_due env x.queue _ u hu
      refine ⟨fun n hn => ?_, fun n hn => .inl hn⟩
      by_cases hlt : env.now < n.entry.time
      · exact .inl (List.mem_filter.2 ⟨hn, decide_eq_true hlt⟩)
      · have hle := Nat.le_of_not_lt hlt
        have hmem := hdue ▸ List.mem_filter.2 ⟨hn, decide_eq_true hle⟩
        obtain ⟨⟨n', v⟩, hv, rfl⟩ := List.mem_map.1 hmem
        exact .inr (.inl ⟨rfl, hle, v, hv⟩)
    · obtain ⟨keep, new, hpass, hnew⟩ := Server.command_passes hb.keyed hsweep hc
      obtain ⟨hleft, hadded⟩ := hpass.queue hs.entries (hnew.imp_right (·.1))
      constructor
      · intro n hn
        cases hk : keep n.entry.cid with
        | true =>
          have hmem : n ∈ x.queue.filter (fun n => decide (n.entry ∈ t.delayed)) := hleft ▸ List.mem_filter.2 ⟨hn, hk⟩
          refine .inl ?_
          cases c
          case sweep => exact absurd rfl hsweep
          all_goals exact List.mem_append_left _ hmem
        | false => exact .inr (.inr (hpass.purged _ hk))
      · have hrec : (x.after env t c).received =
            x.received ++ (t.delayed.drop x.queue.length).map (fun d => ⟨x.received.length, d, x.server⟩) := by
          cases c
          case sweep => exact absurd rfl hsweep
          all_goals rfl
        rw [hrec, hadded]
        refine fun n hn => (List.mem_append.1 hn).imp_right (fun hn => ?_)
        rcases hnew with rfl | ⟨-, d, rfl, rfl, htake⟩
        · cases hn
        · rw [List.mem_singleton.1 hn]
          exact ⟨rfl, rfl, by rw [htake.entry.2.2, hconf]⟩
  · obtain ⟨hy, hacts⟩ := List.mem_filter.1 hy
    obtain ⟨id, a, hsent, ⟨c, hc, hid⟩, hacc⟩ := hs.turned y hy
    obtain ⟨c', id', b, hc', hopen, hid', hb, hcur, hscoped⟩ := Server.acts_current hacts
    rw [hc] at hc'
    cases hc'
    rw [hid] at hid'
    cases hid'
    refine ⟨id, a, b, c, hsent, hc, hopen, hid, hb, hcur, fun hr => ?_⟩
    have hv := (hscoped hr).trans hsent.version.symm
    exact ⟨hv, (hacc b hb hcur).2 hv⟩

/-- Execute commands one after the other, with the record. -/
def Post.exec : List (Env × Command) → Post → Option Post
  | [], x => some x
  | (env, c) :: l, x => (x.server.step env c).bind (fun t => exec l (x.after env t c))

theorem Post.exec_posts {b : Server} : ∀ {l l₀ : List (Env × Command)} {x y : Post}, Posts b l₀ x → exec l x = some y →
    Posts b (l₀ ++ l) y
  | [], l₀, x, y, hx, h => by
    cases h
    rw [List.append_nil]
    exact hx
  | (env, c) :: l, l₀, x, y, hx, h => by
    obtain ⟨t, ht, h⟩ := Option.bind_eq_some_iff.1 h
    have := exec_posts (hx.tail ht) h
    rwa [List.append_assoc] at this

namespace Trace

/-- Five milliseconds of delay. -/
def delaying : Config := { Config.default with sendDelayMs := 5 }

/-- The request to open a room is executed by the sweep that finds it due. -/
def waiting : List (Env × Command) := opening ++ [(.plain 5, .sweep), (.plain 6, .sweep)]

end Trace

omit [Extern] in
theorem delayed_frames_keep_order_waiting :
    letI := Extern.reading [Trace.signUp, Trace.createRoom]
    ∃ x y, Posts (Server.boot Trace.delaying .empty false) Trace.waiting x ∧ x.executed = [y] ∧
      y.1.entry.frame = .text (plainText Trace.createRoom) ∧ y.1.entry.time = 6 ∧
      ∃ id a b, y.1.Sent id a ∧ y.2.players.get id = some b ∧ b.connection = some 1 := by
  let _ := Extern.reading [Trace.signUp, Trace.createRoom]
  have h : (Post.exec Trace.waiting ⟨Server.boot Trace.delaying .empty false, [], [], []⟩).any (fun x =>
      decide (x.executed.length = 1) && x.executed.all (fun y =>
        decide (y.1.entry.frame = .text (plainText Trace.createRoom) ∧ y.1.entry.time = 6 ∧ y.1.entry.cid = 1))) = true := by
    decide +kernel
  obtain ⟨x, hx, h⟩ := (Option.any_eq_true _ _).1 h
  rw [Bool.and_eq_true] at h
  obtain ⟨y, hy⟩ := List.length_eq_one_iff.1 (of_decide_eq_true h.1)
  have hall := List.all_eq_true.1 h.2 y (hy ▸ List.mem_singleton.2 rfl)
  obtain ⟨hframe, htime, hcid⟩ := of_decide_eq_true hall
  have hrun := Post.exec_posts .refl hx
  obtain ⟨-, -, -, -, -, hexec⟩ := delayed_frames_keep_order hrun (by decide)
  obtain ⟨id, a, b, c, hsent, -, -, -, hb, hcur, -⟩ := hexec y (hy ▸ List.mem_singleton.2 rfl)
  exact ⟨x, y, hrun, hy, hframe, htime, id, a, b, hsent, hb, hcid ▸ hcur⟩

end Relay
