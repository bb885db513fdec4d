import GameRelay.Binding
/-!
# Queues — outgoing queues and the socket tasks that drain them (`main.rs`)

`Outbox.offer` is what `raw` does to the queue it addresses.  `Sockets` is the server with the socket tasks of its
connections: frames are queued one by one (`raw`), in any order with the steps of the tasks, and everything else a
method does is `quiet`.  A connection's number is never used again.  `Lane` is what every such run keeps of a queue.
-/
namespace Relay

open Function (update)

/-- Drains one connection; a frame it was sending when it ended stays where it is. -/
structure Task where
  done : List Message
  sending : Option Message
  ended : Bool

def Task.start : Task := ⟨[], none, false⟩

/-- Every frame ever queued for the task, in order; `out` is still in the queue. -/
def Task.frames (k : Task) (out : List Message) : List Message := k.done ++ k.sending.toList ++ out

/-- What the task takes off the counter once it has sent a frame. -/
def Message.sendCost [Extern] (m : Message) : Nat :=
  m.len + if (m matches .ping _) || (m matches .pong _) then 2 else 10

/-- **The two ends of a queue count alike.** -/
theorem Message.sendCost_eq [Extern] (m : Message) : m.sendCost = m.cost := by cases m <;> rfl

/-- What `raw` does to a queue. -/
def Outbox.offer [Extern] (max : Nat) (o : Outbox) (msg : Message) : Outbox :=
  if o.closing then o
  else if max < o.queued + msg.cost then { o with closing := true, abort := true }
  else if o.receiver then { o with closing := msg.isClose, queued := o.queued + msg.cost, out := o.out ++ [msg] }
  else { o with closing := msg.isClose }

/-- The queue of a task: its counter, its bound, and nothing after a Close. -/
structure Lane [Extern] (max : Nat) (o : Outbox) (k : Task) : Prop where
  counter : o.queued = ((k.sending.toList ++ o.out).map Message.cost).sum
  bound : o.queued ≤ max
  last : ∀ m ∈ (k.frames o.out).dropLast, m.isClose = false
  closing : ∀ m ∈ k.frames o.out, m.isClose = true → o.closing = true

namespace Lane

variable [Extern] {max : Nat} {o : Outbox} {k : Task}

theorem start (max : Nat) (o : Outbox) (ho : o.out = []) (hq : o.queued = 0) : Lane max o .start := by
  obtain ⟨out, receiver, queued, closing, abort⟩ := o
  obtain rfl : out = [] := ho
  obtain rfl : queued = 0 := hq
  exact ⟨rfl, Nat.zero_le _, (fun _ h => nomatch h), (fun _ h => nomatch h)⟩

/-- Nothing but the two flags changed, and a queue that was closing is. -/
theorem flags {o' : Outbox} (h : Lane max o k) (hout : o'.out = o.out) (hq : o'.queued = o.queued)
    (hc : o.closing = true → o'.closing = true) : Lane max o' k := by
  refine ⟨?_, by rw [hq]; exact h.bound, ?_, ?_⟩
  · rw [hq, hout]; exact h.counter
  · rw [hout]; exact h.last
  · rw [hout]; exact fun m hm hmc => hc (h.closing m hm hmc)

/-- **Offering a frame keeps the queue in order.** -/
theorem offer (h : Lane max o k) (msg : Message) : Lane max (o.offer max msg) k := by
  unfold Outbox.offer
  split
  · exact h
  rename_i hopen
  have hno : ∀ m ∈ k.frames o.out, m.isClose = false := fun m hm =>
    Bool.eq_false_iff.2 (fun hmc => hopen (h.closing m hm hmc))
  split
  · exact h.flags rfl rfl (fun _ => rfl)
  rename_i hfit
  split
  · have hframes : k.frames (o.out ++ [msg]) = k.frames o.out ++ [msg] := (List.append_assoc ..).symm
    refine ⟨?_, Nat.le_of_not_lt hfit, ?_, ?_⟩
    · show o.queued + msg.cost = ((k.sending.toList ++ (o.out ++ [msg])).map Message.cost).sum
      rw [← List.append_assoc, List.map_append, List.sum_append, ← h.counter]
      simp
    · show ∀ m ∈ (k.frames (o.out ++ [msg])).dropLast, m.isClose = false
      rw [hframes, List.dropLast_concat]
      exact hno
    · intro m hm hmc
      change m ∈ k.frames (o.out ++ [msg]) at hm
      rw [hframes] at hm
      rcases List.mem_append.1 hm with hm | hm
      · rw [hno m hm] at hmc; cases hmc
      · rw [List.mem_singleton.1 hm] at hmc; exact hmc
  · exact h.flags rfl rfl (fun hc => absurd hc hopen)

/-- The task takes the next frame. -/
theorem take {m : Message} {ms : List Message} (h : Lane max o k) (ho : o.out = m :: ms) (hs : k.sending = none) :
    Lane max { o with out := ms } { k with sending := some m } := by
  have hframes : ({ k with sending := some m } : Task).frames ms = k.frames o.out := by
    unfold Task.frames
    rw [ho, hs]
    simp
  refine ⟨?_, h.bound, by rw [hframes]; exact h.last, by rw [hframes]; exact h.closing⟩
  have := h.counter
  rw [ho, hs] at this
  exact this

/-- The task has sent its frame. -/
theorem sent {m : Message} {ended : Bool} (h : Lane max o k) (hs : k.sending = some m) :
    Lane max { o with queued := o.queued - m.sendCost } ⟨k.done ++ [m], none, ended⟩ := by
  have hframes : (⟨k.done ++ [m], none, ended⟩ : Task).frames o.out = k.frames o.out := by
    unfold Task.frames
    rw [hs]
    simp
  refine ⟨?_, Nat.le_trans (Nat.sub_le ..) h.bound, by rw [hframes]; exact h.last, by rw [hframes]; exact h.closing⟩
  have := h.counter
  rw [hs] at this
  simp only [Option.toList_some, List.singleton_append, List.map_cons, List.sum_cons] at this
  rw [Message.sendCost_eq]
  show o.queued - m.cost = ((([] : List Message) ++ o.out).map Message.cost).sum
  rw [List.nil_append]
  omega

end Lane

structure Sockets where
  server : Server
  /-- `none` where no connection ever was. -/
  tasks : Nat → Option Task

namespace Sockets

variable [Extern]

inductive Step (x : Sockets) : Sockets → Prop
  | raw (cid : Nat) (msg : Message) : Step x ⟨x.server.raw cid msg, x.tasks⟩
  | quiet {t : Server} (h : x.server.Quiet t) : Step x ⟨t, x.tasks⟩
  | connected (env : Env) {cid : Nat} (hc : x.server.connections.get cid = none) (hk : x.tasks cid = none) :
      Step x ⟨x.server.connected env cid, update x.tasks cid (some .start)⟩
  | take {cid : Nat} {c : Connection} {k : Task} {m : Message} {ms : List Message}
      (hc : x.server.connections.get cid = some c) (hk : x.tasks cid = some k) (he : k.ended = false)
      (hs : k.sending = none) (ho : c.out = m :: ms) :
      Step x ⟨x.server.setConnection cid { c with out := ms }, update x.tasks cid (some { k with sending := some m })⟩
  /-- A frame went out, or failed to; after a failure or a Close the task takes no more. -/
  | sent {cid : Nat} {c : Connection} {k : Task} {m : Message} (ended : Bool)
      (hc : x.server.connections.get cid = some c) (hk : x.tasks cid = some k) (he : k.ended = false)
      (hs : k.sending = some m) (hclose : m.isClose = true → ended = true) :
      Step x ⟨x.server.setConnection cid { c with queued := c.queued - m.sendCost },
        update x.tasks cid (some ⟨k.done ++ [m], none, ended⟩)⟩
  /-- The task ended: aborted, shut down, or the peer is gone. -/
  | ended {cid : Nat} {k : Task} (hk : x.tasks cid = some k) :
      Step x ⟨x.server, update x.tasks cid (some { k with ended := true })⟩
  /-- An ended task gave up its end of the queue. -/
  | dropped {cid : Nat} {c : Connection} {k : Task} (hc : x.server.connections.get cid = some c)
      (hk : x.tasks cid = some k) (he : k.ended = true) :
      Step x ⟨x.server.setConnection cid { c with receiver := false }, x.tasks⟩

def Run : Sockets → Sockets → Prop := Relation.ReflTransGen Step

def boot (config : Config) (store : Store) (push : Bool) : Sockets := ⟨Server.boot config store push, fun _ => none⟩

/-- What every run keeps. -/
structure Sound (g : Config) (x : Sockets) : Prop where
  config : x.server.config = g
  lanes : ∀ cid c, x.server.connections.get cid = some c →
    ∃ k, x.tasks cid = some k ∧ Lane g.maxBufferedBytes c.outbox k

end Sockets

namespace Server

variable [Extern]

/-- **`raw` offers its frame to one queue** and leaves the others alone. -/
theorem raw_outbox {s : Server} {cid : Nat} {msg : Message} {x : Nat} {c' : Connection}
    (h : (s.raw cid msg).connections.get x = some c') : ∃ c, s.connections.get x = some c ∧
      c'.outbox = if x = cid then c.outbox.offer s.config.maxBufferedBytes msg else c.outbox := by
  have hset : ∀ (t : Server) (c₁ : Connection), t.connections = s.connections →
      (t.setConnection cid c₁).connections.get x = some c' → (x = cid ∧ c' = c₁) ∨ (x ≠ cid ∧ s.connections.get x = some c') := by
    intro t c₁ ht hx
    rw [setConnection, IndexMap.get_insert, ht] at hx
    split at hx
    · rename_i hxc
      exact .inl ⟨hxc, (Option.some.inj hx).symm⟩
    · rename_i hxc
      exact .inr ⟨hxc, hx⟩
  unfold raw at h
  cases hc : s.connections.get cid with
  | none =>
    rw [hc] at h
    refine ⟨c', h, ?_⟩
    rw [if_neg (fun hx => by rw [hx] at h; rw [hc] at h; cases h)]
  | some c =>
    rw [hc] at h
    dsimp only at h
    have hsame : ∀ c₁ : Connection, (x = cid ∧ c' = c₁) ∨ (x ≠ cid ∧ s.connections.get x = some c') →
        c₁.outbox = c.outbox.offer s.config.maxBufferedBytes msg → ∃ c₀, s.connections.get x = some c₀ ∧
          c'.outbox = if x = cid then c₀.outbox.offer s.config.maxBufferedBytes msg else c₀.outbox := by
      rintro c₁ (⟨rfl, rfl⟩ | ⟨hx, hget⟩) ho
      · exact ⟨c, hc, by rw [if_pos rfl]; exact ho⟩
      · exact ⟨c', hget, by rw [if_neg hx]⟩
    split at h
    · rename_i hclosing
      refine hsame c ?_ (by unfold Outbox.offer; rw [if_pos (show c.outbox.closing = true from hclosing)])
      by_cases hx : x = cid
      · refine .inl ⟨hx, ?_⟩
        change s.connections.get x = some c' at h
        rw [hx, hc] at h
        exact (Option.some.inj h).symm
      · exact .inr ⟨hx, h⟩
    rename_i hopen
    split at h
    · rename_i hfull
      refine hsame _ (hset _ _ rfl h) ?_
      unfold Outbox.offer
      rw [if_neg (show ¬ c.outbox.closing = true from hopen),
        if_pos (show s.config.maxBufferedBytes < c.outbox.queued + msg.cost from hfull)]
      rfl
    rename_i hfit
    split at h
    all_goals
      rename_i hrec
      refine hsame _ (hset _ _ rfl h) ?_
      unfold Outbox.offer
      rw [if_neg (show ¬ c.outbox.closing = true from hopen),
        if_neg (show ¬ s.config.maxBufferedBytes < c.outbox.queued + msg.cost from hfit)]
    · rw [if_pos (show c.outbox.receiver = true from hrec)]
      rfl
    · rw [if_neg (show ¬ c.outbox.receiver = true from hrec)]
      rfl

end Server

namespace Sockets

variable [Extern]

/-- Changing one queue together with its task, and no other. -/
theorem Sound.update {g : Config} {x : Sockets} (h : Sound g x) {cid : Nat} {c c' : Connection} {k k' : Task}
    (hc : x.server.connections.get cid = some c) (hk : x.tasks cid = some k)
    (hl : Lane g.maxBufferedBytes c.outbox k → Lane g.maxBufferedBytes c'.outbox k') :
    Sound g ⟨x.server.setConnection cid c', update x.tasks cid (some k')⟩ := by
  refine ⟨h.config, fun y d hd => ?_⟩
  change ((x.server.setConnection cid c').connections.get y) = some d at hd
  rw [Server.setConnection, IndexMap.get_insert] at hd
  split at hd
  · rename_i hy
    cases hd
    obtain ⟨k₀, hk₀, hl₀⟩ := h.lanes cid c hc
    rw [hk] at hk₀
    cases hk₀
    exact ⟨k', by rw [hy]; exact Function.update_self .., hl hl₀⟩
  · rename_i hy
    obtain ⟨k₀, hk₀, hl₀⟩ := h.lanes y d hd
    exact ⟨k₀, by rw [← hk₀]; exact Function.update_of_ne hy .., hl₀⟩

/-- **Every step keeps every queue in order.** -/
theorem Sound.step {g : Config} {x y : Sockets} (h : Sound g x) (hs : Step x y) : Sound g y := by
  cases hs with
  | raw cid msg =>
    refine ⟨(congrArg Core.config (Server.raw_toCore x.server cid msg)).trans h.config, fun z d hd => ?_⟩
    obtain ⟨c, hc, ho⟩ := Server.raw_outbox hd
    obtain ⟨k, hk, hl⟩ := h.lanes z c hc
    refine ⟨k, hk, ?_⟩
    rw [ho, h.config]
    split
    · exact hl.offer msg
    · exact hl
  | quiet hq =>
    refine ⟨hq.config.trans h.config, fun z d hd => ?_⟩
    obtain ⟨c, hc, ho⟩ := hq.outboxes z d hd
    obtain ⟨k, hk, hl⟩ := h.lanes z c hc
    exact ⟨k, hk, by rw [ho]; exact hl⟩
  | connected env hc hk =>
    rename_i cid
    refine ⟨h.config, fun z d hd => ?_⟩
    change (x.server.connected env cid).connections.get z = some d at hd
    rw [Server.connected, Server.setConnection, IndexMap.get_insert] at hd
    split at hd
    · rename_i hz
      cases hd
      exact ⟨.start, by rw [hz]; exact Function.update_self .., .start _ _ rfl rfl⟩
    · rename_i hz
      obtain ⟨k₀, hk₀, hl₀⟩ := h.lanes z d hd
      exact ⟨k₀, by rw [← hk₀]; exact Function.update_of_ne hz .., hl₀⟩
  | take hc hk he hs ho => exact h.update hc hk (fun hl => hl.take ho hs)
  | sent ended hc hk he hs hclose => exact h.update hc hk (fun hl => hl.sent hs)
  | ended hk =>
    rename_i cid k
    refine ⟨h.config, fun z d hd => ?_⟩
    obtain ⟨k₀, hk₀, hl₀⟩ := h.lanes z d hd
    by_cases hz : z = cid
    · subst hz
      rw [hk] at hk₀
      cases hk₀
      exact ⟨_, Function.update_self .., ⟨hl₀.counter, hl₀.bound, hl₀.last, hl₀.closing⟩⟩
    · exact ⟨k₀, by rw [← hk₀]; exact Function.update_of_ne hz .., hl₀⟩
  | dropped hc hk he =>
    rename_i c k
    have hl : Lane g.maxBufferedBytes c.outbox k → Lane g.maxBufferedBytes ({ c with receiver := false } : Connection).outbox k :=
      fun hl => hl.flags rfl rfl (fun hx => hx)
    have := h.update hc hk hl
    rwa [← hk, Function.update_eq_self] at this

theorem Sound.run {g : Config} {x y : Sockets} (h : Sound g x) (hr : Run x y) : Sound g y := by
  induction hr with
  | refl => exact h
  | tail _ hs ih => exact ih.step hs

theorem boot_sound (config : Config) (store : Store) (push : Bool) : Sound config (boot config store push) :=
  ⟨rfl, fun _ _ h => nomatch h⟩

/-- A connection that is gone, or that is closing and has been offered nothing since. -/
def Shut (cid : Nat) (frames : List Message) (x : Sockets) : Prop :=
  ∃ k, x.tasks cid = some k ∧
    ∀ c, x.server.connections.get cid = some c → c.closing = true ∧ k.frames c.out = frames

/-- **Closing is for ever**: no step opens a closing connection again or queues a frame to it. -/
theorem Shut.step {cid : Nat} {frames : List Message} {x y : Sockets} (h : Shut cid frames x) (hs : Step x y) :
    Shut cid frames y := by
  obtain ⟨k, hk, hc⟩ := h
  have hset : ∀ {z : Nat} {c₀ c₁ : Connection} {k₀ k₁ : Task}, x.server.connections.get z = some c₀ → x.tasks z = some k₀ →
      c₁.closing = c₀.closing → k₁.frames c₁.out = k₀.frames c₀.out →
      Shut cid frames ⟨x.server.setConnection z c₁, update x.tasks z (some k₁)⟩ := by
    intro z c₀ c₁ k₀ k₁ hget hk₀ hcl hfr
    by_cases hz : cid = z
    · subst hz
      rw [hk] at hk₀
      cases hk₀
      refine ⟨k₁, Function.update_self .., fun c hc' => ?_⟩
      change (x.server.setConnection cid c₁).connections.get cid = some c at hc'
      rw [Server.setConnection, IndexMap.get_insert_self] at hc'
      cases hc'
      obtain ⟨h₁, h₂⟩ := hc c₀ hget
      exact ⟨hcl.trans h₁, hfr.trans h₂⟩
    · refine ⟨k, by rw [← hk]; exact Function.update_of_ne hz .., fun c hc' => hc c ?_⟩
      change (x.server.setConnection z c₁).connections.get cid = some c at hc'
      rwa [Server.setConnection, IndexMap.get_insert_ne _ _ hz] at hc'
  cases hs with
  | raw z msg =>
    refine ⟨k, hk, fun c' hc' => ?_⟩
    obtain ⟨c, hget, ho⟩ := Server.raw_outbox hc'
    obtain ⟨hcl, hfr⟩ := hc c hget
    have hsame : c'.outbox = c.outbox := by
      rw [ho]
      split
      · unfold Outbox.offer
        rw [if_pos (show c.outbox.closing = true from hcl)]
      · rfl
    exact ⟨(congrArg Outbox.closing hsame).trans hcl, (congrArg (fun o => k.frames o.out) hsame).trans hfr⟩
  | quiet hq =>
    refine ⟨k, hk, fun c' hc' => ?_⟩
    obtain ⟨c, hget, ho⟩ := hq.outboxes cid c' hc'
    obtain ⟨hcl, hfr⟩ := hc c hget
    exact ⟨(congrArg Outbox.closing ho).trans hcl, (congrArg (fun o => k.frames o.out) ho).trans hfr⟩
  | connected env hn hk' =>
    rename_i z
    have hz : cid ≠ z := fun hz => by rw [hz, hk'] at hk; cases hk
    refine ⟨k, by rw [← hk]; exact Function.update_of_ne hz .., fun c hc' => hc c ?_⟩
    change (x.server.connected env z).connections.get cid = some c at hc'
    rwa [Server.connected, Server.setConnection, IndexMap.get_insert_ne _ _ hz] at hc'
  | take hget hk₀ he hs ho =>
    refine hset hget hk₀ rfl ?_
    unfold Task.frames
    rw [ho, hs]
    simp
  | sent ended hget hk₀ he hs hclose =>
    refine hset hget hk₀ rfl ?_
    unfold Task.frames
    rw [hs]
    simp
  | ended hk₀ =>
    rename_i z k₀
    by_cases hz : cid = z
    · subst hz
      rw [hk] at hk₀
      cases hk₀
      exact ⟨_, Function.update_self .., hc⟩
    · exact ⟨k, by rw [← hk]; exact Function.update_of_ne hz .., hc⟩
  | dropped hget hk₀ he =>
    rename_i z c₀ k₀
    have hsame : ({ c₀ with receiver := false } : Connection).closing = c₀.closing := rfl
    have := hset hget hk₀ hsame rfl
    rwa [← hk₀, Function.update_eq_self] at this

theorem Shut.run {cid : Nat} {frames : List Message} {x y : Sockets} (h : Shut cid frames x) (hr : Run x y) :
    Shut cid frames y := by
  induction hr with
  | refl => exact h
  | tail _ hs ih => exact ih.step hs

end Sockets

namespace Server

variable [Extern]

/-! A closing connection is deaf. -/

theorem receive_closing {s : Server} {cid : Nat} {c : Connection} (hc : s.connections.get cid = some c)
    (h : c.closing = true) (env : Env) (frame : Frame) : s.receive env cid frame = .ok s := by
  unfold receive
  rw [hc]
  dsimp only
  rw [h, Bool.true_or, if_pos rfl]

theorem datagram_closing {s : Server} {b : Bytes} {c : Connection}
    (hc : s.connections.get (Udp.connectionOf b) = some c) (h : c.closing = true) (source : String) (t : Nat)
    (challenge : Bytes) : s.datagram b source t challenge = .ok ⟨s, [], []⟩ := by
  refine datagram_ignored source t challenge (fun c' p r u hb => ?_)
  unfold bearer at hb
  obtain ⟨c₀, hc₀, -⟩ := Option.bind_eq_some_iff.1 hb
  obtain ⟨hget, hopen⟩ := Option.filter_eq_some_iff.1 hc₀
  rw [hc] at hget
  cases hget
  rw [h] at hopen
  cases hopen

/-- A delayed frame of a closing connection only leaves the queue. -/
theorem runDelayed_closing {s : Server} {d : Delayed} {c : Connection} (hc : s.connections.get d.cid = some c)
    (h : c.closing = true) {env : Env} (hdue : d.time ≤ env.now) (ds : List Delayed) :
    runDelayed env (d :: ds) s = runDelayed env ds (s.setConnection d.cid (unqueue d c)) := by
  rw [runDelayed, if_neg (Nat.not_lt_of_le hdue), hc]
  refine if_neg (fun hrun => ?_)
  unfold mayRun at hrun
  obtain ⟨p, -, hp⟩ := (Option.any_eq_true _ _).1 hrun
  rw [h] at hp
  cases hp

omit [Extern] in
/-- **A datagram shows in no outgoing queue.** -/
theorem Tuned.quiet {s t : Server} (h : s.Tuned t) : s.Quiet t := by
  refine ⟨congrArg Core.config h.core, h.offered, fun cid c' hc' => ?_⟩
  obtain ⟨c, u, i, o, hc, rfl⟩ := h.connections cid c' hc'
  exact ⟨c, hc, rfl⟩

end Server

namespace Sockets

variable [Extern]

theorem Run.emits {k : Bool} {P : Message → Prop} {s t : Server} (h : Server.Emits k P s t) (tasks : Nat → Option Task) :
    Run ⟨s, tasks⟩ ⟨t, tasks⟩ := by
  induction h with
  | refl => exact .refl
  | tail _ hm ih =>
    cases hm with
    | raw cid h => exact ih.tail (.raw cid _)
    | quiet h _ => exact ih.tail (.quiet h)

/-- **What the server does is such a run**, whatever it serves. -/
theorem Run.serve {x : Sockets} {i : Server.Input} {r : Reply} (h : x.server.serve i = some r)
    (hnew : ∀ env cid, i = .command env (.connected cid) → x.tasks cid = none) : ∃ y, Run x y ∧ y.server = r.server := by
  cases i with
  | command env c =>
    obtain ⟨t, ht, rfl⟩ := Option.map_eq_some_iff.1 h
    rcases Server.step_emits ht with ⟨cid, rfl, hn, rfl⟩ | he
    · exact ⟨_, .single (.connected env hn (hnew env cid rfl)), rfl⟩
    · exact ⟨_, Run.emits he x.tasks, rfl⟩
  | datagram b source now challenge =>
    have hq : x.server.Quiet r.server := Out.all_of_state (P := fun r : Reply => x.server.Quiet r.server)
      ((Server.datagram_tuned x.server b source now challenge).mono (fun _ ht => ht.quiet)) h
    exact ⟨⟨r.server, x.tasks⟩, .single (.quiet hq), rfl⟩

/-- **Outgoing queues are counted and bounded, and a close is for good.**  In every interleaving of queued frames, other
work of the server and steps of the socket tasks: a connection's counter is the cost of the frames queued or being sent
and within the bound, and only the last frame ever queued can be a Close, which leaves the connection closing; a frame
over the bound is not queued and aborts the connection; a closing connection stays closing, is queued nothing more, and
no frame received on it, datagram naming it or delayed frame of it does anything.  All that the server does is such a
run. -/
theorem queues_are_bounded_and_close {config : Config} {store : Store} {push : Bool} {x : Sockets}
    (h : Run (boot config store push) x) :
    (∀ cid c, x.server.connections.get cid = some c → ∃ k, x.tasks cid = some k ∧
      c.queued = ((k.sending.toList ++ c.out).map Message.cost).sum ∧ c.queued ≤ config.maxBufferedBytes ∧
      (∀ m ∈ (k.frames c.out).dropLast, m.isClose = false) ∧
      ∀ m ∈ k.frames c.out, m.isClose = true → c.closing = true) ∧
    (∀ cid c msg, x.server.connections.get cid = some c → c.closing = false →
      config.maxBufferedBytes < c.queued + msg.cost →
      (x.server.raw cid msg).connections.get cid = some { c with closing := true, abort := true }) ∧
    (∀ cid c, x.server.connections.get cid = some c → c.closing = true →
      (∀ y, Run x y → ∀ c', y.server.connections.get cid = some c' → c'.closing = true ∧
        ∃ k k', x.tasks cid = some k ∧ y.tasks cid = some k' ∧ k'.frames c'.out = k.frames c.out) ∧
      (∀ env frame, x.server.receive env cid frame = .ok x.server) ∧
      (∀ b source t challenge, Udp.connectionOf b = cid →
        x.server.datagram b source t challenge = .ok ⟨x.server, [], []⟩) ∧
      ∀ env d ds, d.cid = cid → d.time ≤ env.now →
        Server.runDelayed env (d :: ds) x.server =
          Server.runDelayed env ds (x.server.setConnection cid (Server.unqueue d c))) ∧
    ∀ i r, x.server.serve i = some r → (∀ env cid, i = .command env (.connected cid) → x.tasks cid = none) →
      ∃ y, Run x y ∧ y.server = r.server := by
  have hx := (boot_sound config store push).run h
  refine ⟨fun cid c hc => ?_, fun cid c msg hc hopen hfull => ?_, fun cid c hc hclosing => ⟨fun y hy c' hc' => ?_, ?_, ?_, ?_⟩,
    fun i r => Run.serve⟩
  · obtain ⟨k, hk, hl⟩ := hx.lanes cid c hc
    exact ⟨k, hk, hl.counter, hl.bound, hl.last, hl.closing⟩
  · unfold Server.raw
    rw [hc]
    dsimp only
    rw [hopen, if_neg Bool.false_ne_true, hx.config, if_pos hfull]
    exact IndexMap.get_insert_self _ _ _
  · obtain ⟨k, hk, -⟩ := hx.lanes cid c hc
    have hshut : Shut cid (k.frames c.out) x :=
      ⟨k, hk, fun c₀ hc₀ => by rw [hc] at hc₀; cases hc₀; exact ⟨hclosing, rfl⟩⟩
    obtain ⟨k', hk', hall⟩ := hshut.run hy
    obtain ⟨hcl, hfr⟩ := hall c' hc'
    exact ⟨hcl, k, k', hk, hk', hfr⟩
  · exact fun env frame => Server.receive_closing hc hclosing env frame
  · rintro b source t challenge rfl
    exact Server.datagram_closing hc hclosing source t challenge
  · rintro env d ds rfl hdue
    exact Server.runDelayed_closing hc hclosing hdue ds

omit [Extern] in
/-- A pong is queued and being sent when the connection is closed. -/
theorem queues_are_bounded_and_close_closed :
    letI := Extern.reading []
    ∃ (x : Sockets) (c : Connection) (k : Task), x.server.connections.get 1 = some c ∧ x.tasks 1 = some k ∧
      k.frames c.out = [.pong [7], .close 1008 "Idle timeout"] ∧ c.queued = 25 ∧
      c.queued = ((k.sending.toList ++ c.out).map Message.cost).sum ∧ c.closing = true ∧
      x.server.receive (Env.plain 2) 1 (.ping []) = .ok x.server := by
  let _ := Extern.reading []
  have h₁ : Run (boot Config.default .empty false) _ :=
    .single (@Step.connected _ _ (Env.plain 1) 1 rfl rfl)
  have h₂ := h₁.tail (.raw 1 (.pong [7]))
  have h₃ := h₂.tail (@Step.take _ _ 1 _ _ _ _ rfl rfl rfl rfl rfl)
  have h₄ := h₃.tail (.raw 1 (.close 1008 "Idle timeout"))
  obtain ⟨hcount, -, hclosed, -⟩ := queues_are_bounded_and_close h₄
  obtain ⟨k, hk, hsum, -, -, -⟩ := hcount 1 _ rfl
  exact ⟨_, _, k, rfl, hk, by cases hk; rfl, by decide +kernel, hsum, rfl, (hclosed 1 _ rfl rfl).2.1 _ _⟩

end Sockets
end Relay
