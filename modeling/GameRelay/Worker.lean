import GameRelay.Budgets
/-!
# Worker — the tasks of a process and its one state worker (`state.rs`, `main.rs`)

Every connection has a task; the timer and the datagram listener have one each.  They put their work in one channel of 256
orders, and the state worker carries the orders out.  `Process.step` is one step of any of them, so a run is any
interleaving; `orders` are all that ever were put in.  **What the worker sees of a connection is its start, its frames in
order, its end** (`connections_are_bracketed`), and every run of the process is one of the server's.
-/
namespace Relay

open Function (update update_self update_of_ne)

/-- Where the task of a connection is. -/
inductive Stage where
  /-- The handshake is under way. -/
  | entering
  | serving
  /-- A frame was read and is to be put in the channel. -/
  | telling (frame : Frame)
  /-- A control frame is with the worker, and the task waits for it. -/
  | held
  /-- A Close went out; the worker is to disconnect. -/
  | parting
  /-- What the peer still sends is thrown away. -/
  | draining
  /-- The worker is to disconnect, and then the task is over. -/
  | leaving
  | ended
  /-- The task was aborted at shutdown. -/
  | cancelled
  deriving DecidableEq

structure Client where
  stage : Stage
  /-- The frames read from the peer, those of them put in the channel, and how often the worker was to disconnect. -/
  read : List Frame
  told : List Frame
  parted : Nat

/-- What a task does next. -/
inductive Client.Act where
  | enter
  | refuse
  | read (frame : Frame)
  | tell
  | close
  | leave
  | cancel

def Frame.isControl : Frame → Bool
  | .ping _ | .pong _ => true
  | .text _ | .binary _ => false

/-- A step of the task, and what it puts in the channel. -/
def Client.step (cid : Nat) (k : Client) : Act → Option (Client × Option Command)
  | .enter => if k.stage = .entering then some ({ k with stage := .serving }, some (.connected cid)) else none
  | .refuse => if k.stage = .entering then some ({ k with stage := .ended }, none) else none
  | .read frame =>
    if k.stage = .serving then some ({ k with stage := .telling frame, read := k.read ++ [frame] }, none) else none
  | .tell => match k.stage with
    | .telling frame =>
      some ({ k with stage := if frame.isControl then .held else .serving, told := k.told ++ [frame] },
        some (.receive cid frame))
    | .parting => some ({ k with stage := .draining, parted := k.parted + 1 }, some (.disconnect cid))
    | .leaving => some ({ k with stage := .ended, parted := k.parted + 1 }, some (.disconnect cid))
    | _ => none
  | .close => if k.stage = .serving then some ({ k with stage := .parting }, none) else none
  | .leave =>
    if k.stage = .serving ∨ k.stage = .draining then some ({ k with stage := .leaving }, none) else none
  | .cancel => if k.stage = .ended then none else some ({ k with stage := .cancelled }, none)

/-- The worker has carried out the control frame the task waits for. -/
def Client.answered (k : Client) : Client := if k.stage = .held then { k with stage := .serving } else k

inductive Order where
  | command (c : Command)
  | datagram (b : Bytes) (source : String)

structure Process where
  server : Server
  channel : List Order
  /-- The number of the last connection. -/
  last : Nat
  tasks : Nat → Option Client
  /-- The listener waits for the worker to carry out its datagram. -/
  listening : Bool
  /-- What the worker has carried out. -/
  done : List Server.Input

inductive Process.Move where
  | accept
  | task (cid : Nat) (a : Client.Act)
  | timer
  | listen (b : Bytes) (source : String)
  | work (env : Env) (challenge : Bytes)

namespace Process

def capacity : Nat := 256

def put (x : Process) (o : Order) : Process := { x with channel := x.channel ++ [o] }

/-- The order as the worker carries it out. -/
def input (env : Env) (challenge : Bytes) : Order → Server.Input
  | .command c => .command env c
  | .datagram b source => .datagram b source env.now challenge

/-- Whoever waited for the order goes on. -/
def release (x : Process) : Order → Process
  | .command (.receive cid frame) =>
    if frame.isControl then { x with tasks := update x.tasks cid ((x.tasks cid).map Client.answered) } else x
  | .command _ => x
  | .datagram _ _ => { x with listening := true }

/-- A step; one that cannot be made changes nothing. -/
def step [Extern] (x : Process) : Move → Process
  | .accept => { x with last := x.last + 1, tasks := update x.tasks (x.last + 1) (some ⟨.entering, [], [], 0⟩) }
  | .task cid a => match (x.tasks cid).bind (fun k => k.step cid a) with
    | none => x
    | some (k, none) => { x with tasks := update x.tasks cid (some k) }
    | some (k, some c) =>
      if x.channel.length < capacity then { x with tasks := update x.tasks cid (some k) }.put (.command c) else x
  | .timer => if x.channel.length < capacity then x.put (.command .sweep) else x
  | .listen b source =>
    if x.listening ∧ x.channel.length < capacity then { x with listening := false }.put (.datagram b source) else x
  | .work env challenge => match x.channel with
    | [] => x
    | o :: channel => match x.server.serve (input env challenge o) with
      | none => x
      | some r => { x with server := r.server, channel, done := x.done ++ [input env challenge o] }.release o

def run [Extern] (x : Process) (moves : List Move) : Process := moves.foldl step x

def start (config : Config) (store : Store) (push : Bool) : Process :=
  ⟨Server.boot config store push, [], 0, fun _ => none, true, []⟩

end Process

/-! ## What the worker sees of a connection -/

def Command.link : Command → Option Nat
  | .connected cid => some cid
  | .receive cid _ => some cid
  | .disconnect cid => some cid
  | .sweep => none

def Order.about (cid : Nat) : Order → Option Command
  | .command c => if c.link = some cid then some c else none
  | .datagram _ _ => none

def Server.Input.order : Server.Input → Order
  | .command _ c => .command c
  | .datagram b source _ _ => .datagram b source

/-- The commands of a connection that ever were put in the channel, in order. -/
def Process.commands (x : Process) (cid : Nat) : List Command :=
  (x.done.map Server.Input.order ++ x.channel).filterMap (Order.about cid)

/-- The commands a task has put in the channel. -/
def Client.script (cid : Nat) (k : Client) : List Command :=
  .connected cid :: (k.told.map (Command.receive cid) ++ List.replicate k.parted (.disconnect cid))

/-- How far a task is when it is at its stage. -/
def Client.Fits (k : Client) : Prop :=
  match k.stage with
  | .entering => False
  | .serving | .held | .parting => k.told = k.read ∧ k.parted = 0
  | .telling frame => k.read = k.told ++ [frame] ∧ k.parted = 0
  | .draining => k.told = k.read ∧ k.parted = 1
  | .leaving => k.told = k.read ∧ k.parted ≤ 1
  | .ended => k.told = k.read ∧ 1 ≤ k.parted ∧ k.parted ≤ 2
  | .cancelled => k.told <+: k.read ∧ k.read.length ≤ k.told.length + 1 ∧ k.parted ≤ 1

/-- A task as the worker knows it: not at all before the handshake succeeds, then by its commands. -/
def Client.Shows (cid : Nat) (k : Client) (l : List Command) : Prop :=
  (l = [] ∧ k.read = [] ∧ k.told = [] ∧ k.parted = 0 ∧ (k.stage = .entering ∨ k.stage = .ended ∨ k.stage = .cancelled)) ∨
    (l = k.script cid ∧ k.Fits)

theorem Client.script_told (cid : Nat) {k : Client} (hp : k.parted = 0) (frame : Frame) (stage : Stage) :
    Client.script cid { k with stage := stage, told := k.told ++ [frame] } = k.script cid ++ [.receive cid frame] := by
  simp only [Client.script, hp, List.map_append, List.replicate_zero, List.append_nil, List.map_cons, List.map_nil,
    List.cons_append]

theorem Client.script_parted (cid : Nat) (k : Client) (stage : Stage) :
    Client.script cid { k with stage := stage, parted := k.parted + 1 } = k.script cid ++ [.disconnect cid] := by
  simp only [Client.script, List.replicate_succ', List.cons_append, List.append_assoc]

/-- **A step of a task keeps its commands in order**, and adds only its own. -/
theorem Client.Shows.step {cid : Nat} {k k' : Client} {l : List Command} {a : Client.Act} {c : Option Command}
    (h : k.Shows cid l) (hs : k.step cid a = some (k', c)) :
    k'.Shows cid (l ++ c.toList) ∧ ∀ d, c = some d → d.link = some cid := by
  cases a with
  | enter =>
    change (if k.stage = .entering then _ else none) = _ at hs
    split at hs
    · rename_i hst
      cases hs
      refine ⟨.inr ?_, fun d hd => by cases hd; rfl⟩
      rcases h with ⟨rfl, hr, ht, hp, -⟩ | ⟨-, hf⟩
      · refine ⟨?_, ht.trans hr.symm, hp⟩
        simp only [Client.script, ht, hp]
        rfl
      · unfold Client.Fits at hf
        rw [hst] at hf
        exact hf.elim
    · cases hs
  | refuse =>
    change (if k.stage = .entering then _ else none) = _ at hs
    split at hs
    · rename_i hst
      cases hs
      refine ⟨.inl ?_, fun d hd => by cases hd⟩
      rcases h with ⟨rfl, hr, ht, hp, -⟩ | ⟨-, hf⟩
      · exact ⟨rfl, hr, ht, hp, .inr (.inl rfl)⟩
      · unfold Client.Fits at hf
        rw [hst] at hf
        exact hf.elim
    · cases hs
  | read frame =>
    change (if k.stage = .serving then _ else none) = _ at hs
    split at hs
    · rename_i hst
      cases hs
      refine ⟨.inr ?_, fun d hd => by cases hd⟩
      rcases h with ⟨-, -, -, -, h⟩ | ⟨rfl, hf⟩
      · rw [hst] at h
        simp at h
      · unfold Client.Fits at hf
        rw [hst] at hf
        exact ⟨List.append_nil _, by rw [hf.1], hf.2⟩
    · cases hs
  | tell =>
    unfold Client.step at hs
    rcases h with ⟨-, -, -, -, h⟩ | ⟨rfl, hf⟩
    · rcases h with h | h | h
      all_goals
        rw [h] at hs
        cases hs
    · unfold Client.Fits at hf
      cases hst : k.stage with
      | telling frame =>
        rw [hst] at hs hf
        cases hs
        refine ⟨.inr ⟨(Client.script_told cid hf.2 frame _).symm, ?_⟩, fun d hd => by cases hd; rfl⟩
        unfold Client.Fits
        dsimp only
        cases frame.isControl
        · exact ⟨hf.1.symm, hf.2⟩
        · exact ⟨hf.1.symm, hf.2⟩
      | parting =>
        rw [hst] at hs hf
        cases hs
        exact ⟨.inr ⟨(Client.script_parted cid k _).symm, hf.1, by rw [hf.2]⟩, fun d hd => by cases hd; rfl⟩
      | leaving =>
        rw [hst] at hs hf
        cases hs
        exact ⟨.inr ⟨(Client.script_parted cid k _).symm, hf.1, Nat.le_add_left 1 _, Nat.succ_le_succ hf.2⟩,
          fun d hd => by cases hd; rfl⟩
      | _ => rw [hst] at hs; cases hs
  | close =>
    change (if k.stage = .serving then _ else none) = _ at hs
    split at hs
    · rename_i hst
      cases hs
      refine ⟨.inr ?_, fun d hd => by cases hd⟩
      rcases h with ⟨-, -, -, -, h⟩ | ⟨rfl, hf⟩
      · rw [hst] at h
        simp at h
      · unfold Client.Fits at hf
        rw [hst] at hf
        exact ⟨List.append_nil _, hf⟩
    · cases hs
  | leave =>
    change (if k.stage = .serving ∨ k.stage = .draining then _ else none) = _ at hs
    split at hs
    · rename_i hst
      cases hs
      refine ⟨.inr ?_, fun d hd => by cases hd⟩
      rcases h with ⟨-, -, -, -, h⟩ | ⟨rfl, hf⟩
      · rcases hst with hst | hst
        all_goals
          rw [hst] at h
          simp at h
      · unfold Client.Fits at hf
        refine ⟨List.append_nil _, ?_⟩
        rcases hst with hst | hst
        · rw [hst] at hf
          exact ⟨hf.1, by rw [hf.2]; exact Nat.zero_le 1⟩
        · rw [hst] at hf
          exact ⟨hf.1, Nat.le_of_eq hf.2⟩
    · cases hs
  | cancel =>
    change (if k.stage = .ended then none else _) = _ at hs
    split at hs
    · cases hs
    · rename_i hst
      cases hs
      refine ⟨?_, fun d hd => by cases hd⟩
      rcases h with ⟨rfl, hr, ht, hp, -⟩ | ⟨rfl, hf⟩
      · exact .inl ⟨rfl, hr, ht, hp, .inr (.inr rfl)⟩
      · refine .inr ⟨List.append_nil _, ?_⟩
        have all : k.told = k.read → k.parted ≤ 1 →
            k.told <+: k.read ∧ k.read.length ≤ k.told.length + 1 ∧ k.parted ≤ 1 :=
          fun ht hp => ⟨ht ▸ List.prefix_refl _, ht ▸ Nat.le_succ _, hp⟩
        unfold Client.Fits at hf
        show k.told <+: k.read ∧ k.read.length ≤ k.told.length + 1 ∧ k.parted ≤ 1
        cases hs : k.stage with
        | entering => rw [hs] at hf; exact hf.elim
        | serving => rw [hs] at hf; exact all hf.1 (hf.2 ▸ Nat.zero_le 1)
        | held => rw [hs] at hf; exact all hf.1 (hf.2 ▸ Nat.zero_le 1)
        | parting => rw [hs] at hf; exact all hf.1 (hf.2 ▸ Nat.zero_le 1)
        | telling frame =>
          rw [hs] at hf
          refine ⟨⟨[frame], hf.1.symm⟩, ?_, hf.2 ▸ Nat.zero_le 1⟩
          rw [hf.1, List.length_append]
          exact Nat.le_refl _
        | draining => rw [hs] at hf; exact all hf.1 (Nat.le_of_eq hf.2)
        | leaving => rw [hs] at hf; exact all hf.1 hf.2
        | ended => exact absurd hs hst
        | cancelled => rw [hs] at hf; exact hf

namespace Process

variable {x : Process}

/-! What an order adds. -/

theorem commands_put (x : Process) (o : Order) (cid : Nat) :
    (x.put o).commands cid = x.commands cid ++ (o.about cid).toList := by
  unfold commands put
  dsimp only
  rw [← List.append_assoc, List.filterMap_append]
  cases h : o.about cid <;> simp [h]

theorem about_self {cid : Nat} {c : Command} (h : c.link = some cid) : Order.about cid (.command c) = some c := if_pos h

theorem about_other {cid cid' : Nat} {c : Command} (h : c.link = some cid) (hne : cid' ≠ cid) :
    Order.about cid' (.command c) = none := by
  refine if_neg (fun h' => hne ?_)
  rw [h] at h'
  exact (Option.some.inj h').symm

theorem order_input (env : Env) (challenge : Bytes) (o : Order) : (input env challenge o).order = o := by cases o <;> rfl

/-- **What every step keeps.** -/
structure Bracketed [Extern] (boot : Server) (x : Process) : Prop where
  serves : ∃ log, Server.Serves boot x.done log x.server
  room : x.channel.length ≤ capacity
  fresh : ∀ cid, x.last < cid → x.tasks cid = none
  unknown : ∀ cid, x.tasks cid = none → x.commands cid = []
  known : ∀ cid k, x.tasks cid = some k → k.Shows cid (x.commands cid)

variable [Extern] {boot : Server}

omit [Extern] in
/-- The worker leaves what was ordered. -/
theorem commands_work {o : Order} {channel : List Order} (hc : x.channel = o :: channel) (env : Env) (challenge : Bytes)
    (server : Server) (cid : Nat) :
    Process.commands { x with server, channel, done := x.done ++ [input env challenge o] } cid = x.commands cid := by
  unfold commands
  dsimp only
  rw [hc, List.map_append, List.map_singleton, order_input, List.append_assoc, List.singleton_append]

omit [Extern] in
theorem release_commands (x : Process) (o : Order) (cid : Nat) : (x.release o).commands cid = x.commands cid := by
  unfold release
  split
  · split <;> rfl
  · rfl
  · rfl

omit [Extern] in
theorem Client.Shows.answered {cid : Nat} {k : Client} {l : List Command} (h : k.Shows cid l) : k.answered.Shows cid l := by
  unfold Client.answered
  split
  · rename_i hst
    rcases h with ⟨-, -, -, -, h⟩ | ⟨hl, hf⟩
    · rw [hst] at h
      simp at h
    · refine .inr ⟨hl, ?_⟩
      unfold Client.Fits at hf
      rw [hst] at hf
      exact hf
  · exact h

omit [Extern] in
/-- Releasing a task changes at most its stage. -/
theorem release_tasks (x : Process) (o : Order) (cid : Nat) : (x.release o).tasks cid = x.tasks cid ∨
    (x.release o).tasks cid = (x.tasks cid).map Client.answered := by
  unfold release
  split
  · rename_i cid' frame
    split
    · by_cases hc : cid = cid'
      · subst hc
        exact .inr (update_self ..)
      · exact .inl (update_of_ne hc ..)
    · exact .inl rfl
  · exact .inl rfl
  · exact .inl rfl

namespace Bracketed

/-- An order that concerns no connection. -/
theorem put (h : x.Bracketed boot) {o : Order} (ho : ∀ cid, o.about cid = none) (hroom : x.channel.length < capacity) :
    (x.put o).Bracketed boot := by
  have hcmd : ∀ cid, (x.put o).commands cid = x.commands cid := fun cid => by
    rw [commands_put, ho]
    exact List.append_nil _
  refine ⟨h.serves, ?_, h.fresh, fun cid hn => ?_, fun cid k hk => ?_⟩
  · show (x.channel ++ [o]).length ≤ capacity
    rw [List.length_append]
    exact hroom
  · rw [hcmd]
    exact h.unknown cid hn
  · rw [hcmd]
    exact h.known cid k hk

theorem accept (h : x.Bracketed boot) : (x.step .accept).Bracketed boot := by
  have hnone := h.fresh (x.last + 1) (Nat.lt_succ_self _)
  refine ⟨h.serves, h.room, fun cid hc => ?_, fun cid hn => ?_, fun cid k hk => ?_⟩
  · have hc' : x.last + 1 < cid := hc
    show update x.tasks (x.last + 1) _ cid = none
    rw [update_of_ne (by omega)]
    exact h.fresh cid (by omega)
  · change update x.tasks (x.last + 1) _ cid = none at hn
    by_cases hc : cid = x.last + 1
    · subst hc
      rw [update_self] at hn
      cases hn
    · rw [update_of_ne hc] at hn
      exact h.unknown cid hn
  · change update x.tasks (x.last + 1) _ cid = some k at hk
    by_cases hc : cid = x.last + 1
    · subst hc
      rw [update_self] at hk
      cases hk
      exact .inl ⟨h.unknown _ hnone, rfl, rfl, rfl, .inl rfl⟩
    · rw [update_of_ne hc] at hk
      exact h.known cid k hk

/-- A step of one task; `o` is what it puts in the channel. -/
theorem task (h : x.Bracketed boot) {cid : Nat} {k k' : Client} {a : Client.Act} {c : Option Command}
    (hk : x.tasks cid = some k) (hs : k.step cid a = some (k', c)) (channel : List Order)
    (hch : channel = x.channel ++ (c.map Order.command).toList) (hroom : channel.length ≤ capacity) :
    Process.Bracketed boot { x with tasks := update x.tasks cid (some k'), channel } := by
  obtain ⟨hshow, hlink⟩ := (h.known cid k hk).step hs
  have hcmd : ∀ cid', Process.commands { x with tasks := update x.tasks cid (some k'), channel } cid' =
      x.commands cid' ++ (c.bind (fun c => Order.about cid' (.command c))).toList := by
    intro cid'
    unfold commands
    dsimp only
    rw [hch, ← List.append_assoc, List.filterMap_append]
    cases c with
    | none => rfl
    | some c => cases hab : Order.about cid' (.command c) <;> simp [hab]
  have hother : ∀ cid', cid' ≠ cid → c.bind (fun c => Order.about cid' (.command c)) = none := by
    intro cid' hne
    cases c with
    | none => rfl
    | some c => exact about_other (hlink c rfl) hne
  have hself : c.bind (fun c => Order.about cid (.command c)) = c := by
    cases c with
    | none => rfl
    | some c => exact about_self (hlink c rfl)
  refine ⟨h.serves, hroom, fun cid' hc => ?_, fun cid' hn => ?_, fun cid' k₁ hk₁ => ?_⟩
  · have hne : cid' ≠ cid := fun he => by
      rw [he] at hc
      rw [h.fresh cid hc] at hk
      cases hk
    show update x.tasks cid (some k') cid' = none
    rw [update_of_ne hne]
    exact h.fresh cid' hc
  · change update x.tasks cid (some k') cid' = none at hn
    by_cases hc : cid' = cid
    · rw [hc, update_self] at hn
      cases hn
    · rw [update_of_ne hc] at hn
      rw [hcmd, hother cid' hc, h.unknown cid' hn]
      rfl
  · change update x.tasks cid (some k') cid' = some k₁ at hk₁
    rw [hcmd]
    by_cases hc : cid' = cid
    · subst hc
      rw [update_self] at hk₁
      cases hk₁
      rw [hself]
      exact hshow
    · rw [update_of_ne hc] at hk₁
      rw [hother cid' hc]
      simpa using h.known cid' k₁ hk₁

theorem work (h : x.Bracketed boot) {o : Order} {channel : List Order} (hc : x.channel = o :: channel) (env : Env)
    (challenge : Bytes) {r : Reply} (hr : x.server.serve (input env challenge o) = some r) :
    (Process.release { x with server := r.server, channel, done := x.done ++ [input env challenge o] } o).Bracketed boot := by
  obtain ⟨log, hlog⟩ := h.serves
  have hroom := h.room
  rw [hc] at hroom
  have hcmd : ∀ cid, (Process.release { x with server := r.server, channel, done := x.done ++ [input env challenge o] }
      o).commands cid = x.commands cid := fun cid => by rw [release_commands, commands_work hc]
  generalize hy : Process.release { x with server := r.server, channel, done := x.done ++ [input env challenge o] } o = y at hcmd
  have htasks : ∀ cid, y.tasks cid = x.tasks cid ∨ y.tasks cid = (x.tasks cid).map Client.answered := fun cid => by
    rw [← hy]
    exact release_tasks _ o cid
  have hrest : y.server = r.server ∧ y.channel = channel ∧ y.done = x.done ++ [input env challenge o] ∧ y.last = x.last := by
    rw [← hy]
    unfold release
    split
    · split <;> exact ⟨rfl, rfl, rfl, rfl⟩
    · exact ⟨rfl, rfl, rfl, rfl⟩
    · exact ⟨rfl, rfl, rfl, rfl⟩
  obtain ⟨hserver, hchannel, hdone, hlast⟩ := hrest
  refine ⟨⟨log ++ r.events, ?_⟩, ?_, fun cid hl => ?_, fun cid hn => ?_, fun cid k hk => ?_⟩
  · rw [hserver, hdone]
    exact .tail hlog hr
  · rw [hchannel]
    exact Nat.le_of_succ_le hroom
  · rw [hlast] at hl
    rcases htasks cid with ht | ht <;> rw [ht, h.fresh cid hl]
    rfl
  · rw [hcmd]
    refine h.unknown cid ?_
    rcases htasks cid with ht | ht
    · exact ht ▸ hn
    · rw [ht] at hn
      exact Option.map_eq_none_iff.1 hn
  · rw [hcmd]
    rcases htasks cid with ht | ht
    · exact h.known cid k (ht ▸ hk)
    · rw [ht] at hk
      obtain ⟨k₀, hk₀, rfl⟩ := Option.map_eq_some_iff.1 hk
      exact Client.Shows.answered (h.known cid k₀ hk₀)

/-- **Every step keeps every connection in order.** -/
theorem step (h : x.Bracketed boot) (m : Move) : (x.step m).Bracketed boot := by
  cases m with
  | accept => exact h.accept
  | timer =>
    change Bracketed boot (if x.channel.length < capacity then _ else x)
    split
    · rename_i hroom
      exact h.put (fun _ => rfl) hroom
    · exact h
  | listen b source =>
    change Bracketed boot (if x.listening ∧ x.channel.length < capacity then _ else x)
    split
    · rename_i hroom
      have h' : Process.Bracketed boot { x with listening := false } := ⟨h.serves, h.room, h.fresh, h.unknown, h.known⟩
      exact h'.put (fun _ => rfl) hroom.2
    · exact h
  | task cid a =>
    unfold Process.step
    dsimp only
    cases hk : x.tasks cid with
    | none => exact h
    | some k =>
      rw [Option.bind_some]
      cases hs : k.step cid a with
      | none => exact h
      | some p =>
        obtain ⟨k', c⟩ := p
        cases c with
        | none =>
          have h' := h.task hk hs x.channel (List.append_nil _).symm h.room
          exact h'
        | some c =>
          dsimp only
          split
          · rename_i hroom
            refine h.task hk hs (x.channel ++ [.command c]) rfl ?_
            rw [List.length_append]
            exact hroom
          · exact h
  | work env challenge =>
    unfold Process.step
    dsimp only
    cases hc : x.channel with
    | nil => exact h
    | cons o channel =>
      dsimp only
      cases hr : x.server.serve (input env challenge o) with
      | none => exact h
      | some r => exact h.work hc env challenge hr

theorem run : ∀ (moves : List Move) {x : Process}, x.Bracketed boot → (x.run moves).Bracketed boot
  | [], _, h => h
  | m :: moves, _, h => run moves (h.step m)

end Bracketed

theorem start_bracketed (config : Config) (store : Store) (push : Bool) :
    (start config store push).Bracketed (Server.boot config store push) :=
  ⟨⟨[], .refl⟩, Nat.zero_le _, fun _ _ => rfl, fun _ _ => rfl, fun _ _ h => by cases h⟩

/-- **A number is free when the worker comes to its start.** -/
theorem Bracketed.free {config : Config} {store : Store} {push : Bool} {x : Process}
    (h : x.Bracketed (Server.boot config store push)) {cid : Nat} {channel : List Order}
    (hc : x.channel = .command (.connected cid) :: channel) : x.server.connections.contains cid = false := by
  refine eq_false_of_ne_true (fun hin => ?_)
  obtain ⟨c, hget⟩ := IndexMap.contains_iff.1 hin
  obtain ⟨log, hlog⟩ := h.serves
  obtain ⟨i, hi, hnum⟩ := List.mem_filterMap.1 (hlog.born cid c hget)
  obtain ⟨before, hbefore⟩ : ∃ l, l = (x.done.map Server.Input.order).filterMap (Order.about cid) := ⟨_, rfl⟩
  have hmem : Command.connected cid ∈ before := by
    rw [hbefore]
    refine List.mem_filterMap.2 ⟨i.order, List.mem_map.2 ⟨i, hi, rfl⟩, ?_⟩
    cases i with
    | datagram => cases hnum
    | command env cmd =>
      cases cmd with
      | connected k =>
        cases hnum
        exact about_self rfl
      | _ => cases hnum
  have hcmd : x.commands cid = before ++ .connected cid :: channel.filterMap (Order.about cid) := by
    unfold commands
    rw [hc, List.filterMap_append, ← hbefore, List.filterMap_cons, about_self rfl]
  cases hk : x.tasks cid with
  | none =>
    rw [h.unknown cid hk] at hcmd
    exact absurd hcmd.symm (by simp)
  | some k =>
    rcases h.known cid k hk with ⟨hnil, -⟩ | ⟨hscript, -⟩
    · rw [hnil] at hcmd
      exact absurd hcmd.symm (by simp)
    · rw [hscript, Client.script] at hcmd
      cases before with
      | nil => cases hmem
      | cons b before =>
        rw [List.cons_append, List.cons.injEq] at hcmd
        have hlater : Command.connected cid ∈ k.told.map (Command.receive cid) ++ List.replicate k.parted (.disconnect cid) := by
          rw [hcmd.2]
          exact List.mem_append_right _ List.mem_cons_self
        rcases List.mem_append.1 hlater with hm | hm
        · obtain ⟨f, -, hf⟩ := List.mem_map.1 hm
          cases hf
        · cases List.eq_of_mem_replicate hm

end Process

/-! Who waits for the worker. -/

def Command.isControl : Command → Bool
  | .receive _ frame => frame.isControl
  | _ => false

def Order.isDatagram : Order → Bool
  | .datagram _ _ => true
  | .command _ => false

/-- A task that goes on was not waiting, and waits if it put in a control frame. -/
theorem Client.step_waits {cid : Nat} {k k' : Client} {a : Client.Act} {c : Option Command}
    (hs : k.step cid a = some (k', c)) (hc : k'.stage ≠ .cancelled) :
    k.stage ≠ .held ∧ k.stage ≠ .cancelled ∧
      (c.toList.countP Command.isControl) = if k'.stage = .held then 1 else 0 := by
  cases a with
  | enter =>
    change (if k.stage = .entering then _ else none) = _ at hs
    split at hs
    · rename_i hst; cases hs; rw [hst]; exact ⟨by decide, by decide, rfl⟩
    · cases hs
  | refuse =>
    change (if k.stage = .entering then _ else none) = _ at hs
    split at hs
    · rename_i hst; cases hs; rw [hst]; exact ⟨by decide, by decide, rfl⟩
    · cases hs
  | read frame =>
    change (if k.stage = .serving then _ else none) = _ at hs
    split at hs
    · rename_i hst
      cases hs
      rw [hst]
      exact ⟨by decide, by decide, (if_neg (fun h => by cases h)).symm⟩
    · cases hs
  | tell =>
    unfold Client.step at hs
    cases hst : k.stage with
    | telling frame =>
      rw [hst] at hs
      cases hs
      refine ⟨(fun h => by cases h), (fun h => by cases h), ?_⟩
      cases hf : frame.isControl <;> simp [Command.isControl, hf]
    | parting => rw [hst] at hs; cases hs; exact ⟨(fun h => by cases h), (fun h => by cases h), rfl⟩
    | leaving => rw [hst] at hs; cases hs; exact ⟨(fun h => by cases h), (fun h => by cases h), rfl⟩
    | _ => rw [hst] at hs; cases hs
  | close =>
    change (if k.stage = .serving then _ else none) = _ at hs
    split at hs
    · rename_i hst; cases hs; rw [hst]; exact ⟨by decide, by decide, rfl⟩
    · cases hs
  | leave =>
    change (if k.stage = .serving ∨ k.stage = .draining then _ else none) = _ at hs
    split at hs
    · rename_i hst
      cases hs
      rcases hst with hst | hst <;> rw [hst] <;> exact ⟨by decide, by decide, rfl⟩
    · cases hs
  | cancel =>
    change (if k.stage = .ended then none else _) = _ at hs
    split at hs
    · cases hs
    · cases hs; exact absurd rfl hc

namespace Process

variable {x : Process}

/-- The commands of a connection that the worker has yet to carry out. -/
def pending (x : Process) (cid : Nat) : List Command := x.channel.filterMap (Order.about cid)

/-- **A task waits for its control frame, the listener for its datagram**, and nobody else does. -/
structure Attentive (x : Process) : Prop where
  controls : ∀ cid k, x.tasks cid = some k → k.stage ≠ .cancelled →
    (x.pending cid).countP Command.isControl = if k.stage = .held then 1 else 0
  datagrams : x.channel.countP Order.isDatagram = if x.listening then 0 else 1

theorem pending_append (l : List Order) (c : Option Command) (cid : Nat) :
    (l ++ (c.map Order.command).toList).filterMap (Order.about cid) =
      l.filterMap (Order.about cid) ++ (c.bind (fun c => Order.about cid (.command c))).toList := by
  rw [List.filterMap_append]
  cases c with
  | none => rfl
  | some c => cases hab : Order.about cid (.command c) <;> simp [hab]

namespace Attentive

variable [Extern] {boot : Server}

omit [Extern] in
theorem task (h : x.Attentive) {cid : Nat} {k k' : Client} {a : Client.Act} {c : Option Command}
    (hk : x.tasks cid = some k) (hs : k.step cid a = some (k', c)) (hlink : ∀ d, c = some d → d.link = some cid)
    (channel : List Order) (hch : channel = x.channel ++ (c.map Order.command).toList) :
    Process.Attentive { x with tasks := update x.tasks cid (some k'), channel } := by
  refine ⟨fun cid' k₁ hk₁ hne => ?_, ?_⟩
  · change update x.tasks cid (some k') cid' = some k₁ at hk₁
    show (channel.filterMap (Order.about cid')).countP Command.isControl = _
    rw [hch, pending_append, List.countP_append]
    by_cases hc : cid' = cid
    · subst hc
      rw [update_self] at hk₁
      cases hk₁
      obtain ⟨hheld, hcan, hcount⟩ := Client.step_waits hs hne
      have hself : c.bind (fun c => Order.about cid' (.command c)) = c := by
        cases c with
        | none => rfl
        | some c => exact about_self (hlink c rfl)
      have hold := h.controls cid' k hk hcan
      rw [if_neg hheld] at hold
      change (x.channel.filterMap (Order.about cid')).countP Command.isControl = 0 at hold
      rw [hself, hold, hcount, Nat.zero_add]
    · rw [update_of_ne hc] at hk₁
      have hother : c.bind (fun c => Order.about cid' (.command c)) = none := by
        cases c with
        | none => rfl
        | some c => exact about_other (hlink c rfl) hc
      rw [hother]
      exact h.controls cid' k₁ hk₁ hne
  · show channel.countP Order.isDatagram = _
    have hnone : (c.map Order.command).toList.countP Order.isDatagram = 0 := by cases c <;> rfl
    rw [hch, List.countP_append, hnone]
    exact h.datagrams

omit [Extern] in
/-- The worker carries out the next order. -/
theorem work (h : x.Attentive) {o : Order} {channel : List Order} (hc : x.channel = o :: channel) (server : Server)
    (done : List Server.Input) : (Process.release { x with server, channel, done } o).Attentive := by
  have hcontrols := h.controls
  have hdatagrams := h.datagrams
  unfold pending at hcontrols
  rw [hc] at hcontrols hdatagrams
  cases o with
  | datagram b source =>
    refine ⟨hcontrols, ?_⟩
    rw [List.countP_cons] at hdatagrams
    show channel.countP Order.isDatagram = 0
    have hle : (if x.listening then 0 else 1) ≤ 1 := by split <;> decide
    have hone : (if Order.isDatagram (.datagram b source) = true then 1 else 0) = 1 := rfl
    omega
  | command cmd =>
    have hdata : channel.countP Order.isDatagram = if x.listening then 0 else 1 := hdatagrams
    have still : cmd.isControl = false → Process.Attentive { x with server, channel, done } := by
      refine fun hno => ⟨fun cid k hk hne => ?_, hdata⟩
      rw [← hcontrols cid k hk hne, List.filterMap_cons]
      show (channel.filterMap (Order.about cid)).countP Command.isControl = _
      cases hab : Order.about cid (.command cmd) with
      | none => rfl
      | some d =>
        have hd : d = cmd := by
          change (if cmd.link = some cid then some cmd else none) = some d at hab
          split at hab
          · exact (Option.some.inj hab).symm
          · cases hab
        rw [hd, List.countP_cons_of_neg (by rw [hno]; decide)]
    cases cmd with
    | receive cid frame =>
      change Process.Attentive (if frame.isControl then _ else _)
      split
      · rename_i hf
        refine ⟨fun cid' k' hk' hne => ?_, hdata⟩
        change update x.tasks cid ((x.tasks cid).map Client.answered) cid' = some k' at hk'
        show (channel.filterMap (Order.about cid')).countP Command.isControl = _
        by_cases hcid : cid' = cid
        · subst hcid
          rw [update_self] at hk'
          obtain ⟨k, hk, rfl⟩ := Option.map_eq_some_iff.1 hk'
          have hcan : k.stage ≠ .cancelled := fun hcan => hne (by
            unfold Client.answered
            rw [if_neg (by rw [hcan]; decide)]
            exact hcan)
          have hone := hcontrols cid' k hk hcan
          rw [List.filterMap_cons, about_self rfl] at hone
          dsimp only at hone
          rw [List.countP_cons_of_pos (show Command.isControl (.receive cid' frame) = true from hf)] at hone
          by_cases hheld : k.stage = .held
          · rw [if_pos hheld] at hone
            unfold Client.answered
            rw [if_pos hheld, if_neg (fun h => by cases h)]
            omega
          · rw [if_neg hheld] at hone
            omega
        · rw [update_of_ne hcid] at hk'
          have hold := hcontrols cid' k' hk' hne
          rwa [List.filterMap_cons, about_other rfl hcid] at hold
      · rename_i hf
        exact still (eq_false_of_ne_true hf)
    | connected cid => exact still rfl
    | disconnect cid => exact still rfl
    | sweep => exact still rfl

/-- **Every step keeps the waiting in order.** -/
theorem step (h : x.Attentive) (hb : x.Bracketed boot) (m : Move) : (x.step m).Attentive := by
  cases m with
  | accept =>
    refine ⟨fun cid k hk hne => ?_, h.datagrams⟩
    change update x.tasks (x.last + 1) _ cid = some k at hk
    by_cases hc : cid = x.last + 1
    · subst hc
      rw [update_self] at hk
      cases hk
      have hnil := hb.unknown _ (hb.fresh _ (Nat.lt_succ_self x.last))
      unfold commands at hnil
      rw [List.filterMap_append] at hnil
      show (x.channel.filterMap _).countP _ = _
      rw [(List.append_eq_nil_iff.1 hnil).2]
      rfl
    · rw [update_of_ne hc] at hk
      exact h.controls cid k hk hne
  | timer =>
    change Attentive (if x.channel.length < capacity then _ else x)
    split
    · refine ⟨fun cid k hk hne => ?_, ?_⟩
      · show ((x.channel ++ [_]).filterMap (Order.about cid)).countP _ = _
        rw [List.filterMap_append]
        exact (congrArg _ (List.append_nil _)).trans (h.controls cid k hk hne)
      · show (x.channel ++ [_]).countP _ = _
        rw [List.countP_append]
        exact h.datagrams
    · exact h
  | listen b source =>
    change Attentive (if x.listening ∧ x.channel.length < capacity then _ else x)
    split
    · rename_i hl
      refine ⟨fun cid k hk hne => ?_, ?_⟩
      · show ((x.channel ++ [_]).filterMap (Order.about cid)).countP _ = _
        rw [List.filterMap_append]
        exact (congrArg _ (List.append_nil _)).trans (h.controls cid k hk hne)
      · have hzero := h.datagrams
        rw [if_pos hl.1] at hzero
        show (x.channel ++ [_]).countP _ = 1
        rw [List.countP_append, hzero]
        rfl
    · exact h
  | task cid a =>
    unfold Process.step
    dsimp only
    cases hk : x.tasks cid with
    | none => exact h
    | some k =>
      rw [Option.bind_some]
      cases hs : k.step cid a with
      | none => exact h
      | some p =>
        obtain ⟨k', c⟩ := p
        have hlink := ((hb.known cid k hk).step hs).2
        cases c with
        | none => exact h.task hk hs hlink x.channel (List.append_nil _).symm
        | some c =>
          dsimp only
          split
          · exact h.task hk hs hlink (x.channel ++ [.command c]) rfl
          · exact h
  | work env challenge =>
    unfold Process.step
    dsimp only
    cases hc : x.channel with
    | nil => exact h
    | cons o channel =>
      dsimp only
      cases hr : x.server.serve (input env challenge o) with
      | none => exact h
      | some r => exact h.work hc _ _

theorem run : ∀ (moves : List Move) {x : Process}, x.Attentive → x.Bracketed boot → (x.run moves).Attentive
  | [], _, h, _ => h
  | m :: moves, _, h, hb => run moves (h.step hb m) (hb.step m)

end Attentive

/-- **What the worker sees of a connection is its start, its frames in order, its end**, in any interleaving of the tasks:
what it carries out is a run of the server; every frame read was put in the channel once and in order, save perhaps the
last; a task that ends by itself disconnects; a number is free when it starts.  No task reads on before its control frame
is answered, and at most one datagram waits, so the channel holds at most 256 orders. -/
theorem connections_are_bracketed [Extern] (config : Config) (store : Store) (push : Bool) (moves : List Move) :
    let x := (start config store push).run moves
    (∃ log, Server.Serves (Server.boot config store push) x.done log x.server) ∧ x.channel.length ≤ 256 ∧
    (∀ cid, x.tasks cid = none → x.commands cid = []) ∧
    (∀ cid k, x.tasks cid = some k → (x.commands cid = [] ∧ k.read = []) ∨
      (x.commands cid =
          .connected cid :: (k.told.map (Command.receive cid) ++ List.replicate k.parted (.disconnect cid)) ∧
        k.told <+: k.read ∧ k.read.length ≤ k.told.length + 1 ∧ k.parted ≤ 2 ∧
        (k.stage = .ended → k.told = k.read ∧ 1 ≤ k.parted))) ∧
    (∀ cid k, x.tasks cid = some k → k.stage = .serving → ∀ c ∈ x.pending cid, c.isControl = false) ∧
    x.channel.countP Order.isDatagram ≤ 1 ∧
    ∀ cid channel, x.channel = .command (.connected cid) :: channel → x.server.connections.contains cid = false := by
  intro x
  have hstart := start_bracketed config store push
  have hb : x.Bracketed (Server.boot config store push) := hstart.run moves
  have ha : x.Attentive := Attentive.run moves ⟨(fun _ _ h => by cases h), rfl⟩ hstart
  refine ⟨hb.serves, hb.room, hb.unknown, fun cid k hk => ?_, fun cid k hk hst c hc => ?_, ?_, fun cid channel hc => hb.free hc⟩
  · rcases hb.known cid k hk with ⟨hnil, hread, -⟩ | ⟨hscript, hfits⟩
    · exact .inl ⟨hnil, hread⟩
    · have all : k.told = k.read → k.parted ≤ 2 → (k.stage = .ended → 1 ≤ k.parted) →
          k.told <+: k.read ∧ k.read.length ≤ k.told.length + 1 ∧ k.parted ≤ 2 ∧
            (k.stage = .ended → k.told = k.read ∧ 1 ≤ k.parted) :=
        fun ht hp he => ⟨ht ▸ List.prefix_refl _, ht ▸ Nat.le_succ _, hp, fun h => ⟨ht, he h⟩⟩
      refine .inr ⟨hscript, ?_⟩
      unfold Client.Fits at hfits
      cases hst : k.stage with
      | entering => rw [hst] at hfits; exact hfits.elim
      | telling frame =>
        rw [hst] at hfits
        refine ⟨⟨[frame], hfits.1.symm⟩, ?_, hfits.2 ▸ Nat.zero_le 2, fun h => by cases h⟩
        rw [hfits.1, List.length_append]
        exact Nat.le_refl _
      | cancelled =>
        rw [hst] at hfits
        exact ⟨hfits.1, hfits.2.1, Nat.le_succ_of_le hfits.2.2, fun h => by cases h⟩
      | serving => rw [hst] at hfits all; exact all hfits.1 (hfits.2 ▸ Nat.zero_le 2) (fun h => by cases h)
      | held => rw [hst] at hfits all; exact all hfits.1 (hfits.2 ▸ Nat.zero_le 2) (fun h => by cases h)
      | parting => rw [hst] at hfits all; exact all hfits.1 (hfits.2 ▸ Nat.zero_le 2) (fun h => by cases h)
      | draining => rw [hst] at hfits all; exact all hfits.1 (hfits.2 ▸ by decide) (fun h => by cases h)
      | leaving => rw [hst] at hfits all; exact all hfits.1 (Nat.le_succ_of_le hfits.2) (fun h => by cases h)
      | ended => rw [hst] at hfits all; exact all hfits.1 hfits.2.2 (fun _ => hfits.2.1)
  · have hzero := ha.controls cid k hk (by rw [hst]; decide)
    rw [hst, if_neg (by decide), List.countP_eq_zero] at hzero
    exact eq_false_of_ne_true (hzero c hc)
  · rw [ha.datagrams]
    split <;> decide

end Process
end Relay
