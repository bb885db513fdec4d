import GameRelay.Enrolments
import GameRelay.Trace
/-!
# Registrations — accounts and push tokens over memory, store and deliveries

`Service` is the server with its delivery tasks, the pushes sent but not answered, and the log of the registrations made;
a restart keeps the files.  Accounts in memory and their files agree in every run in which no registration takes a token
from another account in memory and no push of `notifyPlayers` is answered as invalid (`accounts_agree`).
-/
namespace Relay

open Function (update)

/-- The profile without one device. -/
def Profile.without (x : Profile) (device : String) : Profile :=
  { x with devices := x.devices.filter (fun d => decide (d.id ≠ device)) }

theorem Player.profile_without (p : Player) (device : String) :
    ({ p with devices := p.devices.shiftRemove device } : Player).profile = p.profile.without device := by
  refine congrArg (Profile.mk p.id p.name p.password) ?_
  show (p.devices.entries.filter (fun e => decide (e.1 ≠ device))).map deviceOf = _
  rw [Player.profile, List.filter_map]
  rfl

/-- The account has registered the token. -/
def Profile.Has (x : Profile) (device : String) (token : Value) : Prop := ∃ d ∈ x.devices, d.id = device ∧ d.token = token

variable [Extern]

theorem Store.reopen_files (io : Nat → Bool) (st : Store) (now : Nat) :
    (st.reopen io now).store.accounts = st.accounts ∧ (st.reopen io now).store.enabled = st.enabled := by
  unfold reopen
  dsimp only
  obtain ⟨ids, -, hp⟩ := prune_spec io { st with jobs := loadJobs (if st.enabled then st.notifications else .empty) } [] now
  exact ⟨hp.accounts, hp.enabled⟩

namespace Server

omit [Extern] in
/-- A file is written, and with it the account if it is in memory. -/
theorem forgetDevice_roll {env : Env} (hio : ∀ n, env.io n = true) {s : Server} (hp : s.roll.Proper) (id device : String)
    (token : Value) :
    ((s.forgetDevice env id device token).roll = s.roll ∧ ∀ p, s.knownAccount env id = some p →
        (p.devices.get device).any (fun d => decide (d.idx "token" = token)) = false) ∨
      (∃ x, s.roll.memory id = some x ∧ (s.forgetDevice env id device token).roll = s.roll.write id (x.without device)) ∨
      ∃ x, s.players.get id = none ∧ s.roll.files (lowerText id) = some x ∧ (s.forgetDevice env id device token).roll =
        { s.roll with files := update s.roll.files (lowerText id) (some (x.without device)) } := by
  unfold forgetDevice
  cases hk : s.knownAccount env id with
  | none => exact .inl ⟨rfl, fun p h => nomatch h⟩
  | some p =>
    dsimp only
    split
    swap
    · rename_i hn
      refine .inl ⟨rfl, fun q hq => ?_⟩
      cases hq
      exact Bool.eq_false_iff.2 hn
    refine .inr ?_
    unfold knownAccount at hk
    generalize hq : ({ p with devices := p.devices.shiftRemove device } : Player) = q
    have hqid : q.id = p.id := by rw [← hq]
    have hqp : q.profile = p.profile.without device := by rw [← hq]; exact p.profile_without device
    generalize hsave : s.store.saveAccount env.io q = saved
    obtain ⟨st, ok⟩ := saved
    cases hget : s.players.get id with
    | some p' =>
      rw [hget] at hk
      cases hk
      obtain ⟨hid, hu, hl⟩ := hp.memory (memory_eq hget)
      change p.id = id at hid
      subst hid
      rw [if_pos (show s.players.contains p.id = true from IndexMap.contains_iff.2 ⟨p, hget⟩)]
      refine .inl ⟨p.profile, memory_eq hget, ?_⟩
      have hw := (write_roll hio (s := s) (t := s.setPlayer q.id q) hp.enabled (by rw [hqid]; exact hu)
        (by rw [hqid]; exact hl) rfl hsave).2
      rw [hqid, hqp] at hw
      exact hw
    | none =>
      rw [hget] at hk
      cases hacc : s.store.account id env.now with
      | error _ => rw [hacc] at hk; cases hk
      | ok o =>
        rw [hacc] at hk
        dsimp only at hk
        subst hk
        obtain ⟨hid, hfile⟩ := account_roll hp hacc
        obtain ⟨-, hu, hl⟩ := hp.files hfile
        rw [if_neg (show ¬ s.players.contains id = true by rw [IndexMap.contains_eq_false.2 hget]; decide)]
        refine .inr ⟨p.profile, rfl, hid ▸ hfile, ?_⟩
        have hw := (saveAccount_roll hio hp.enabled (by rw [hqid]; exact hu) (by rw [hqid]; exact hl) hsave).2
        rw [hqid, hqp, hid] at hw
        exact hw

omit [Extern] in
theorem retire_roll (env : Env) (s : Server) (d : Delivery) : (s.retire env d).roll = s.roll := by
  unfold retire
  split
  · rfl
  · rename_i jobs _
    split
    · dsimp only
      split
      · have h := Store.setJobs_files env.io s.store d.room (retiredJobs d.job d.failed env.now jobs)
        exact roll_store h.2.1 h.2.2
      · split <;> rfl
    · rfl

omit [Extern] in
/-- A push answered as invalid takes the device from the account in memory, and only there. -/
theorem legacyAnswered_roll (s : Server) (job : LegacyPush) (answer : Answer) :
    (s.legacyAnswered job answer).roll = s.roll ∨ (answer = .invalid ∧ ∃ p, s.players.get job.player = some p ∧
      (p.devices.get job.device).any (fun d => decide (d.idx "token" = .str job.token)) = true ∧
      (s.legacyAnswered job answer).roll =
        { s.roll with memory := update s.roll.memory job.player (some (p.profile.without job.device)) }) := by
  unfold legacyAnswered
  dsimp only
  split
  · rename_i p hget
    split
    · rename_i hany
      refine .inr ⟨rfl, p, hget, hany, ?_⟩
      rw [← p.profile_without]
      exact roll_setPlayer { s with pushesInFlight := s.pushesInFlight - 1 } job.player _
    · exact .inl rfl
  · exact .inl rfl

/-- A new process over the files. -/
theorem restart_roll (env : Env) (s : Server) (config : Config) (push : Bool) :
    (boot config ({ s.store with max := config.sessionMaxBytes }.reopen env.io env.now).store push).roll =
      ⟨s.store.enabled, fun _ => none, s.roll.files, []⟩ := by
  obtain ⟨ha, he⟩ := Store.reopen_files env.io { s.store with max := config.sessionMaxBytes } env.now
  generalize ({ s.store with max := config.sessionMaxBytes }.reopen env.io env.now).store = st at ha he
  show Roll.mk st.enabled _ (fun k => (st.accounts.get k).bind _) _ = _
  rw [ha, he]
  rfl

end Server

omit [Extern] in
/-- A step of the delivery task changes accounts in one place only. -/
theorem PushTask.step_roll (env : Env) (answer : Answer) (s : Server) (task : PushTask) :
    (task.step env answer s).1.roll = s.roll ∨ ∃ d t device jobs, task = .answered d t device true jobs ∧
      (task.step env answer s).1.roll = (s.forgetDevice env t.id device.1 (device.2.idx "token")).roll := by
  cases task with
  | idle => exact .inl rfl
  | due l => cases l <;> exact .inl rfl
  | job d jobs =>
    rw [PushTask.step]
    split
    · exact .inl (Server.retire_roll env s d)
    · split <;> exact .inl rfl
  | target d t jobs =>
    rw [PushTask.step]
    repeat' split
    all_goals exact .inl rfl
  | asked d t device jobs => cases answer <;> exact .inl rfl
  | answered d t device invalid jobs =>
    cases invalid with
    | false => exact .inl rfl
    | true => exact .inr ⟨d, t, device, jobs, rfl, rfl⟩

omit [Extern] in
theorem Server.isUuid_of_account {st : Store} {key : String} {now : Nat} {p : Player}
    (h : st.account key now = .ok (some p)) : isUuid key = true := by
  unfold Store.account at h
  split at h
  · cases h
  split at h
  · cases h
  · exact eq_true_of_ne_false (by assumption)

omit [Extern] in
/-- An account file is what a lookup gives, under either spelling. -/
theorem Server.account_of_files {s : Server} (hp : s.roll.Proper) {key : String} (hkey : isUuid key = true) {x : Profile}
    (h : s.roll.files (lowerText key) = some x) (now : Nat) :
    ∃ q, s.store.account key now = .ok (some q) ∧ q.profile = x := by
  obtain ⟨hid, hu, -⟩ := hp.files h
  obtain ⟨o, ho, hx⟩ := Option.bind_eq_some_iff.1
    (show (s.store.accounts.get (lowerText key)).bind (Option.map fileProfile) = some x from h)
  obtain ⟨v, rfl, rfl⟩ := Option.map_eq_some_iff.1 hx
  refine ⟨Store.accountPlayer v key now, ?_, ?_⟩
  · unfold Store.account
    rw [if_neg (by rw [show s.store.enabled = true from hp.enabled]; decide), if_neg (by rw [hkey]; decide), ho]
  · show Profile.mk (((v.idx "id").asStr).getD key) _ _ _ = Profile.mk (((v.idx "id").asStr).getD "") _ _ _
    have hname : (fileProfile v).id = ((v.idx "id").asStr).getD "" := rfl
    cases hstr : (v.idx "id").asStr with
    | none =>
      rw [← hid, hname, hstr] at hu
      exact absurd hu (by decide)
    | some k => rfl

/-! What the accounts keep. -/

namespace Roll

/-- Every account in memory is on file as it is. -/
def Mirrored (r : Roll) : Prop := ∀ id x, r.memory id = some x → r.files id = some x

omit [Extern] in
theorem Mirrored.write {r : Roll} {id : String} {x : Profile} (h : ∀ k y, k ≠ id → r.memory k = some y → r.files k = some y) :
    (r.write id x).Mirrored := by
  intro k y hy
  show update r.files id (some x) k = some y
  rcases update_some hy with ⟨rfl, he⟩ | ⟨hne, he⟩
  · cases he; exact Function.update_self ..
  · rw [Function.update_of_ne hne]; exact h k y hne he

omit [Extern] in
/-- A registration keeps what is on file of every account it takes no token from. -/
theorem Mirrored.move {a : Option Registration} {r r' : Roll} (hm : Roll.Moves a r r') (h : r.Mirrored)
    (hg : ∀ g, a = some g → ∀ {id x}, id ≠ g.player → r.memory id = some x → ∀ d ∈ x.devices, d.token ≠ g.token) :
    r'.Mirrored := by
  cases hm with
  | same => exact h
  | expired id =>
    intro k y hy
    rcases update_some hy with ⟨-, he⟩ | ⟨-, he⟩
    · cases he
    · exact h _ _ he
  | opened => exact Mirrored.write (fun k y _ => h k y)
  | wrote => exact Mirrored.write (fun k y _ => h k y)
  | pushed => exact h
  | registered hp hid hd =>
    rename_i g x x'
    refine Mirrored.write (fun k y hne hy => ?_)
    obtain ⟨y₀, hy₀, rfl⟩ := Option.map_eq_some_iff.1 hy
    refine (h _ _ hy₀).trans (congrArg some ?_)
    refine congrArg (Profile.mk y₀.id y₀.name y₀.password) (List.filter_eq_self.2 (fun d hd => ?_)).symm
    exact decide_eq_true (hg g rfl hne hy₀ d hd)

/-- The account has no such registration, in memory or on file. -/
def Lacks (r : Roll) (g : Registration) : Prop :=
  ∀ x, r.memory g.player = some x ∨ r.files g.player = some x → ¬ x.Has g.device g.token

omit [Extern] in
theorem Lacks.write {r : Roll} {g : Registration} (h : r.Lacks g) {id : String} {x : Profile}
    (hx : id = g.player → ¬ x.Has g.device g.token) : (r.write id x).Lacks g := by
  intro y hy
  have key : ∀ f : String → Option Profile, update f id (some x) g.player = some y →
      (f g.player = some y → ¬ y.Has g.device g.token) → ¬ y.Has g.device g.token := fun f hf hold => by
    rcases update_some hf with ⟨he, hy⟩ | ⟨-, hy⟩
    · cases hy; exact hx he.symm
    · exact hold hy
  rcases hy with hy | hy
  · exact key r.memory hy (fun h' => h _ (.inl h'))
  · exact key r.files hy (fun h' => h _ (.inr h'))

omit [Extern] in
theorem Lacks.move {a : Option Registration} {r r' : Roll} (hm : Roll.Moves a r r') {g : Registration} (h : r.Lacks g)
    (hg : a ≠ some g) : r'.Lacks g := by
  have sub : ∀ {x x' : Profile}, x'.devices.Sublist x.devices → ¬ x.Has g.device g.token → ¬ x'.Has g.device g.token :=
    fun hs hx ⟨d, hd, he⟩ => hx ⟨d, hs.subset hd, he⟩
  cases hm with
  | same => exact h
  | expired id =>
    intro y hy
    rcases hy with hy | hy
    · rcases update_some hy with ⟨-, he⟩ | ⟨-, he⟩
      · cases he
      · exact h _ (.inl he)
    · exact h _ (.inr hy)
  | opened hid hu hl hd => exact h.write (fun _ ⟨d, hd', _⟩ => by rw [hd] at hd'; cases hd')
  | wrote hx hid hd =>
    refine h.write (fun he => sub hd (h _ ?_))
    rw [← he]
    exact hx
  | pushed => exact h
  | registered hp hid hd =>
    rename_i g' x x'
    have hclaim : (r.claim g'.token).Lacks g := by
      intro y hy
      rcases hy with hy | hy
      · obtain ⟨y₀, hy₀, rfl⟩ := Option.map_eq_some_iff.1 hy
        exact sub List.filter_sublist (h _ (.inl hy₀))
      · exact h _ (.inr hy)
    refine hclaim.write (fun he ⟨d, hd', hid', htok⟩ => ?_)
    rcases hd d hd' with ⟨hdx, -⟩ | ⟨hdev, htok'⟩
    · exact h _ (.inl (he ▸ hp)) ⟨d, hdx, hid', htok⟩
    · refine hg (congrArg some ?_)
      obtain ⟨p, dev, tok⟩ := g
      obtain ⟨p', dev', tok'⟩ := g'
      dsimp only at he hdev htok' hid' htok
      rw [he, ← hdev, hid', ← htok', htok]

end Roll

/-! The relay with its delivery tasks. -/

/-- The server, the delivery task, the pushes of `notifyPlayers` sent but not answered, and the registrations so far. -/
structure Service where
  server : Server
  task : PushTask
  flight : List LegacyPush
  log : List Registration

namespace Service

/-- A step of the service, with what it reads from outside. -/
inductive Act where
  | command (env : Env) (c : Command)
  | pass (env : Env) (answer : Answer)
  /-- `deliver_legacy` takes the queued pushes and sends them. -/
  | take
  | answered (job : LegacyPush) (answer : Answer)
  /-- The process ends, and another one opens the directory. -/
  | restart (env : Env) (config : Config) (push : Bool)

/-- No write of the step fails. -/
def Act.Writes : Act → Prop
  | .command env _ | .pass env _ | .restart env _ _ => ∀ n, env.io n = true
  | _ => True

inductive Step (x : Service) : Act → Service → Prop
  | command {env : Env} {c : Command} {t : Server} (h : x.server.step env c = some t) :
      Step x (.command env c) { x with server := t, log := x.log ++ (x.server.enrolments env c).map Prod.snd }
  | pass {env : Env} {answer : Answer} :
      Step x (.pass env answer)
        { x with server := (x.task.step env answer x.server).1, task := (x.task.step env answer x.server).2 }
  | take (h : x.flight = []) :
      Step x .take { x with server := { x.server with legacyPushes := [] }, flight := x.server.legacyPushes }
  | answered {pre post : List LegacyPush} {job : LegacyPush} {answer : Answer} (h : x.flight = pre ++ job :: post) :
      Step x (.answered job answer) { x with server := x.server.legacyAnswered job answer, flight := pre ++ post }
  | restart {env : Env} {config : Config} {push : Bool} :
      Step x (.restart env config push)
        { x with
          server := .boot config ({ x.server.store with max := config.sessionMaxBytes }.reopen env.io env.now).store push
          task := .idle, flight := [] }

/-- The service when the relay starts for the first time. -/
def start (config : Config) (store : Store) (push : Bool) : Service := ⟨.boot config store push, .idle, [], []⟩

/-- A run of steps that all satisfy `G`, in which no write fails. -/
def Run (G : Service → Act → Prop) : Service → Service → Prop :=
  Relation.ReflTransGen (fun x y => ∃ a, a.Writes ∧ G x a ∧ Step x a y)

omit [Extern] in
theorem start_roll (config : Config) {store : Store} (push : Bool) (ha : store.accounts = IndexMap.empty) :
    (start config store push).server.roll = ⟨store.enabled, fun _ => none, fun _ => none, []⟩ := by
  show Roll.mk store.enabled _ (fun k => (store.accounts.get k).bind _) _ = _
  rw [ha]
  rfl

/-- What a step does to the accounts. -/
inductive Rolls (x : Service) (a : Act) : Roll → Prop
  | same : Rolls x a x.server.roll
  | trail {env : Env} {c : Command} {r : Roll} (ha : a = .command env c)
      (h : Roll.Trail x.server.roll (x.server.enrolments env c) r) : Rolls x a r
  /-- The device of a delivery was invalid: the file is written, and the account in memory under that spelling. -/
  | forgot {env : Env} {answer : Answer} {d : Delivery} {t : Target} {device : String × Value}
      {jobs : List (String × Value)} {y : Profile} (ha : a = .pass env answer) (ht : x.task = .answered d t device true jobs)
      (hy : x.server.roll.memory t.id = some y) : Rolls x a (x.server.roll.write t.id (y.without device.1))
  | filed {env : Env} {answer : Answer} {d : Delivery} {t : Target} {device : String × Value}
      {jobs : List (String × Value)} {y : Profile} (ha : a = .pass env answer) (ht : x.task = .answered d t device true jobs)
      (hn : x.server.players.get t.id = none) (hy : x.server.roll.files (lowerText t.id) = some y) :
      Rolls x a { x.server.roll with files := update x.server.roll.files (lowerText t.id) (some (y.without device.1)) }
  | took (ha : a = .take) : Rolls x a { x.server.roll with queued := [] }
  | dropped {job : LegacyPush} {p : Player} (ha : a = .answered job .invalid)
      (hp : x.server.players.get job.player = some p)
      (hd : (p.devices.get job.device).any (fun d => decide (d.idx "token" = .str job.token)) = true) :
      Rolls x a { x.server.roll with
        memory := update x.server.roll.memory job.player (some (p.profile.without job.device)) }
  | restarted : Rolls x a ⟨x.server.store.enabled, fun _ => none, x.server.roll.files, []⟩

/-- **Every step is one of these.** -/
theorem Step.rolls {x y : Service} {a : Act} (hw : a.Writes) (hp : x.server.roll.Proper) (h : Step x a y) :
    Rolls x a y.server.roll := by
  cases h with
  | command h => exact .trail rfl (Server.step_trail hw hp h)
  | pass =>
    rename_i env answer
    rcases PushTask.step_roll env answer x.server x.task with h | ⟨d, t, device, jobs, ht, h⟩
    · show Rolls x _ (Core.roll _)
      rw [h]
      exact .same
    · show Rolls x _ (Core.roll _)
      rw [h]
      rcases Server.forgetDevice_roll hw hp t.id device.1 (device.2.idx "token") with ⟨h, -⟩ | ⟨y, hy, h⟩ | ⟨y, hn, hy, h⟩
      · rw [h]; exact .same
      · rw [h]; exact .forgot rfl ht hy
      · rw [h]; exact .filed rfl ht hn hy
  | take h => exact .took rfl
  | answered h =>
    rename_i pre post job answer
    rcases x.server.legacyAnswered_roll job answer with h | ⟨rfl, p, hget, hd, h⟩
    · show Rolls x _ (Core.roll _)
      rw [h]
      exact .same
    · show Rolls x _ (Core.roll _)
      rw [h]
      exact .dropped rfl hget hd
  | restart =>
    rename_i env config push
    show Rolls x _ (Core.roll _)
    rw [Server.restart_roll]
    exact .restarted

theorem Rolls.proper {x : Service} {a : Act} {r : Roll} (hp : x.server.roll.Proper) (h : Rolls x a r) : r.Proper := by
  cases h with
  | same => exact hp
  | trail ha h => exact h.proper hp
  | forgot ha ht hy => exact hp.write (hp.memory hy).1 (hp.memory hy).2.1 (hp.memory hy).2.2
  | filed ha ht hn hy =>
    refine ⟨hp.enabled, hp.memory, fun hx => ?_⟩
    rcases update_some hx with ⟨rfl, he⟩ | ⟨-, he⟩
    · cases he
      have hfile := hp.files hy
      exact hfile
    · exact hp.files he
  | took ha => exact ⟨hp.enabled, hp.memory, hp.files⟩
  | dropped ha hpl hd =>
    refine ⟨hp.enabled, fun hx => ?_, hp.files⟩
    rcases update_some hx with ⟨rfl, he⟩ | ⟨-, he⟩
    · cases he
      have hmem := hp.memory (Server.memory_eq hpl)
      exact hmem
    · exact hp.memory he
  | restarted => exact ⟨hp.enabled, (fun h => nomatch h), hp.files⟩

theorem Run.keeps_proper {G : Service → Act → Prop} {x y : Service} (hp : x.server.roll.Proper) (h : Run G x y) :
    y.server.roll.Proper := by
  induction h with
  | refl => exact hp
  | tail _ hs ih =>
    obtain ⟨a, hw, -, hs⟩ := hs
    exact (hs.rolls hw ih).proper ih

theorem Run.proper {G : Service → Act → Prop} {config : Config} {store : Store} {push : Bool} {x : Service}
    (he : store.enabled = true) (ha : store.accounts = IndexMap.empty) (h : Run G (start config store push) x) :
    x.server.roll.Proper := by
  refine h.keeps_proper ?_
  rw [start_roll config push ha]
  exact ⟨he, (fun h => nomatch h), (fun h => nomatch h)⟩

/-! Accounts in memory and on file. -/

/-- The step registers no token that another account in memory has, forgets a device of an account under no other spelling
than the one in memory, and no push of `notifyPlayers` is answered as invalid while its device still has the token. -/
def Spares (x : Service) : Act → Prop
  | .command env c => ∀ e ∈ x.server.enrolments env c, ∀ a ∈ e.1.players.entries, a.1 ≠ e.2.player →
      ∀ d ∈ a.2.devices.entries, d.2.idx "token" ≠ e.2.token
  | .pass _ _ => ∀ d t device jobs, x.task = .answered d t device true jobs → x.server.players.get t.id = none →
      x.server.players.get (lowerText t.id) = none
  | .answered job .invalid => ∀ p, x.server.players.get job.player = some p →
      (p.devices.get job.device).any (fun d => decide (d.idx "token" = .str job.token)) = false
  | _ => True

theorem Rolls.mirrored {x : Service} {a : Act} {r : Roll} (h : Rolls x a r) (hg : Spares x a)
    (hm : x.server.roll.Mirrored) : r.Mirrored := by
  cases h with
  | same => exact hm
  | trail ha h =>
    subst ha
    refine h.invariant (fun r r' hmove hm => hm.move hmove (fun g hg => nomatch hg)) (fun e he r' hmove hm => ?_) hm
    refine hm.move hmove (fun g hge id y hne hy d hd => ?_)
    obtain rfl : e.2 = g := Option.some.inj hge
    obtain ⟨p, hget, rfl⟩ := Option.map_eq_some_iff.1 hy
    obtain ⟨f, hf, rfl⟩ := List.mem_map.1 hd
    exact hg e he (id, p) (IndexMap.mem_entries.2 hget) hne f hf
  | forgot ha ht hy => exact Roll.Mirrored.write (fun k y _ => hm k y)
  | filed ha ht hn hy =>
    rename_i env answer d t device jobs y
    subst ha
    intro k z hz
    show update x.server.roll.files (lowerText t.id) _ k = some z
    rw [Function.update_of_ne, hm k z hz]
    rintro rfl
    have hnone := hg d t device jobs ht hn
    change (x.server.players.get (lowerText t.id)).map Player.profile = some z at hz
    rw [hnone] at hz
    cases hz
  | took ha => exact hm
  | dropped ha hpl hd =>
    subst ha
    rw [hg _ hpl] at hd
    cases hd
  | restarted => exact fun _ _ h => nomatch h

theorem Run.mirrored {config : Config} {store : Store} {push : Bool} {x : Service} (he : store.enabled = true)
    (ha : store.accounts = IndexMap.empty) (h : Run Spares (start config store push) x) : x.server.roll.Mirrored := by
  induction h with
  | refl =>
    rw [start_roll config push ha]
    exact fun _ _ h => nomatch h
  | tail hrun hs ih =>
    obtain ⟨a, hw, hg, hs⟩ := hs
    have hp := Run.proper he ha hrun
    exact (hs.rolls hw hp).mirrored hg ih

/-- The step makes this registration. -/
def Makes (x : Service) (g : Registration) (a : Act) : Prop :=
  ∃ env c, a = .command env c ∧ ∃ e ∈ x.server.enrolments env c, e.2 = g

theorem Rolls.lacks {x : Service} {a : Act} {r : Roll} (h : Rolls x a r) {g : Registration} (hg : ¬ Makes x g a)
    (hl : x.server.roll.Lacks g) : r.Lacks g := by
  have without : ∀ {y : Profile} {device : String}, ¬ y.Has g.device g.token → ¬ (y.without device).Has g.device g.token :=
    fun hy ⟨d, hd, he⟩ => hy ⟨d, List.mem_of_mem_filter hd, he⟩
  cases h with
  | same => exact hl
  | trail ha h =>
    refine h.invariant (I := fun r => r.Lacks g) (fun r r' hmove hl => hl.move hmove (fun h => nomatch h))
      (fun e he r' hmove hl => ?_) hl
    exact hl.move hmove (fun hge => hg ⟨_, _, ha, e, he, Option.some.inj hge⟩)
  | forgot ha ht hy => exact hl.write (fun hid => without (hl _ (.inl (hid ▸ hy))))
  | filed ha ht hn hy =>
    intro z hz
    rcases hz with hz | hz
    · exact hl _ (.inl hz)
    · rcases update_some hz with ⟨hid, he⟩ | ⟨-, he⟩
      · cases he; exact without (hl _ (.inr (hid ▸ hy)))
      · exact hl _ (.inr he)
  | took ha => exact hl
  | dropped ha hpl hd =>
    intro z hz
    rcases hz with hz | hz
    · rcases update_some hz with ⟨hid, he⟩ | ⟨-, he⟩
      · cases he; exact without (hl _ (.inl (hid ▸ Server.memory_eq hpl)))
      · exact hl _ (.inl he)
    · exact hl _ (.inr hz)
  | restarted => exact fun z hz => hz.elim (fun h => nomatch h) (fun h => hl _ (.inr h))

/-- **A device that was removed as invalid stays removed** until it is registered again. -/
theorem Run.lacks {G : Service → Act → Prop} {x y : Service} {g : Registration} (hp : x.server.roll.Proper)
    (hl : x.server.roll.Lacks g) (h : Run (fun z a => G z a ∧ ¬ Makes z g a) x y) : y.server.roll.Lacks g := by
  induction h with
  | refl => exact hl
  | tail hrun hs ih =>
    obtain ⟨a, hw, ⟨-, hg⟩, hs⟩ := hs
    exact (hs.rolls hw (Run.keeps_proper hp hrun)).lacks hg ih

omit [Extern] in
/-- A delivery that found the token invalid leaves no registration of it with that device. -/
theorem forgetDevice_lacks {env : Env} (hio : ∀ n, env.io n = true) {s : Server} (hp : s.roll.Proper) (hm : s.roll.Mirrored)
    (id device : String) (token : Value) (hid : isUuid id = true)
    (hcase : s.players.get id = none → s.players.get (lowerText id) = none) :
    (s.forgetDevice env id device token).roll.Lacks ⟨lowerText id, device, token⟩ := by
  have gone : ∀ x : Profile, ¬ (x.without device).Has device token := fun x ⟨d, hd, hid, _⟩ => by
    have := (List.mem_filter.1 hd).2
    simp [hid] at this
  have other : s.players.get id = none → ∀ y, ¬ s.roll.memory (lowerText id) = some y := fun hn y hy => by
    change (s.players.get (lowerText id)).map Player.profile = some y at hy
    rw [hcase hn] at hy
    cases hy
  rcases Server.forgetDevice_roll hio hp id device token with ⟨hr, hsame⟩ | ⟨x, hx, hr⟩ | ⟨x, hn, hx, hr⟩
  · rw [hr]
    have hknown : ∀ p, s.knownAccount env id = some p → ¬ p.profile.Has device token := fun p hk ⟨d, hd, hid, htok⟩ => by
      obtain ⟨⟨k, v⟩, he, rfl⟩ := List.mem_map.1 hd
      have hget := IndexMap.mem_entries.1 he
      have := hsame p hk
      change k = device at hid
      rw [← hid, hget] at this
      exact (of_decide_eq_false this) htok
    intro y hy
    unfold Server.knownAccount at hknown
    cases hget : s.players.get id with
    | some p =>
      have hl := (hp.memory (Server.memory_eq hget)).2.2
      rw [hget] at hknown
      have hyp : y = p.profile := by
        rw [hl] at hy
        rcases hy with hy | hy
        · exact Option.some.inj (hy.symm.trans (Server.memory_eq hget))
        · exact Option.some.inj (hy.symm.trans (hm _ _ (Server.memory_eq hget)))
      rw [hyp]
      exact hknown p rfl
    | none =>
      rcases hy with hy | hy
      · exact absurd hy (other hget y)
      · obtain ⟨q, hq, rfl⟩ := Server.account_of_files hp hid hy env.now
        rw [hget, hq] at hknown
        exact hknown q rfl
  · rw [hr]
    obtain ⟨-, -, hl⟩ := hp.memory hx
    intro y hy
    have hxy : some (x.without device) = some y := by
      rcases hy with hy | hy
      · rcases update_some hy with ⟨-, he⟩ | ⟨hne, -⟩
        · exact he
        · exact absurd hl hne
      · rcases update_some hy with ⟨-, he⟩ | ⟨hne, -⟩
        · exact he
        · exact absurd hl hne
    rw [← Option.some.inj hxy]
    exact gone x
  · rw [hr]
    intro y hy
    rcases hy with hy | hy
    · exact absurd hy (other hn y)
    · rcases update_some hy with ⟨-, he⟩ | ⟨hne, -⟩
      · rw [← Option.some.inj he]
        exact gone x
      · exact absurd rfl hne

omit [Extern] in
/-- An account that returns is the one in memory, or on file. -/
theorem retained_of_files {s : Server} (hp : s.roll.Proper) (hm : s.roll.Mirrored) {id : String} {x : Profile}
    (h : s.roll.files id = some x) (env : Env) : ∃ q, s.retainedAccount env id = .ok (some q) ∧ q.profile = x := by
  obtain ⟨-, hu, hl⟩ := hp.files h
  unfold Server.retainedAccount
  cases hget : s.players.get id with
  | some p => exact ⟨p, rfl, Option.some.inj ((hm _ _ (Server.memory_eq hget)).symm.trans h)⟩
  | none =>
    dsimp only
    rw [if_pos hu]
    exact Server.account_of_files hp hu (by rw [hl]; exact h) env.now

/-- **Memory and the stored accounts agree**, through expiry and restarts, and a device removed by a delivery stays removed. -/
theorem accounts_agree {config : Config} {store : Store} {push : Bool} {x : Service} (he : store.enabled = true)
    (ha : store.accounts = IndexMap.empty) (h : Run Spares (start config store push) x) :
    (∀ id p, x.server.players.get id = some p →
      (∀ now q, x.server.store.account id now = .ok (some q) → q.profile = p.profile) ∧
      (∀ env, ∃ q, (x.server.expire env.now).retainedAccount env id = .ok (some q) ∧ q.profile = p.profile) ∧
      ∀ env env' config push y, Step x (.restart env config push) y →
        ∃ q, y.server.retainedAccount env' id = .ok (some q) ∧ q.profile = p.profile) ∧
    ∀ env answer d t device jobs y z, (∀ n, env.io n = true) → x.task = .answered d t device true jobs →
      Spares x (.pass env answer) → Step x (.pass env answer) y →
      Run (fun z a => Spares z a ∧ ¬ Makes z ⟨lowerText t.id, device.1, device.2.idx "token"⟩ a) y z →
      ∀ p now, z.server.players.get t.id = some p ∨ z.server.store.account t.id now = .ok (some p) →
        ¬ p.profile.Has device.1 (device.2.idx "token") := by
  have hp := Run.proper he ha h
  have hm := Run.mirrored he ha h
  refine ⟨fun id p hget => ?_, fun env answer d t device jobs y z hio htask hg hs hrun p now hfound => ?_⟩
  · have hfile := hm _ _ (Server.memory_eq hget)
    refine ⟨fun now q hq => ?_, fun env => ?_, fun env env' config push y hs => ?_⟩
    · obtain ⟨hid, hq'⟩ := Server.account_roll hp hq
      rw [hid, (hp.memory (Server.memory_eq hget)).2.2] at hq'
      exact Option.some.inj (hq'.symm.trans hfile)
    · have htrail := Server.expire_trail x.server env.now
      have hm' : (x.server.expire env.now).roll.Mirrored := htrail.invariant (I := fun r => r.Mirrored)
        (fun r r' hmove hm => hm.move hmove (fun g hg => nomatch hg)) (fun _ he => absurd he List.not_mem_nil) hm
      refine retained_of_files (htrail.proper hp) hm' ?_ env
      show ((x.server.expire env.now).store.accounts.get id).bind _ = _
      rw [Server.expire_store]
      exact hfile
    · cases hs
      have hr := Server.restart_roll env x.server config push
      refine retained_of_files (by rw [hr]; exact ⟨hp.enabled, (fun h => nomatch h), hp.files⟩)
        (by rw [hr]; exact fun _ _ h => nomatch h) (by rw [hr]; exact hfile) env'
  · have hp' : y.server.roll.Proper := (hs.rolls (a := .pass env answer) hio hp).proper hp
    have hpz : z.server.roll.Proper := Run.keeps_proper hp' hrun
    have hu : isUuid t.id = true := by
      rcases hfound with hf | hf
      · exact (hpz.memory (Server.memory_eq hf)).2.1
      · exact Server.isUuid_of_account hf
    cases hs with
    | pass =>
      have hlacks := forgetDevice_lacks hio hp hm t.id device.1 (device.2.idx "token") hu
        (hg d t device jobs htask)
      have hroll : (x.task.step env answer x.server).1.roll =
          (x.server.forgetDevice env t.id device.1 (device.2.idx "token")).roll := by rw [htask]; rfl
      refine Run.lacks hp' (by rw [hroll]; exact hlacks) hrun _ ?_
      rcases hfound with hf | hf
      · refine .inl ?_
        show z.server.roll.memory (lowerText t.id) = _
        rw [(hpz.memory (Server.memory_eq hf)).2.2]
        exact Server.memory_eq hf
      · obtain ⟨hid, hfile⟩ := Server.account_roll hpz hf
        exact .inr (by rw [← hid]; exact hfile)

/-- Commands executed one after the other are a run of the service, whatever the check ensures. -/
theorem Run.commands {G : Service → Act → Prop} {ok : Env → Server → Command → Bool}
    (hok : ∀ log now s c, ok (.plain now) s c = true → G ⟨s, .idle, [], log⟩ (.command (.plain now) c)) :
    ∀ {l : List (Nat × Command)} {s t : Server} (log : List Registration),
      Server.exec ok (l.map (fun e => (.plain e.1, e.2))) s = some t → ∃ log', Run G ⟨s, .idle, [], log⟩ ⟨t, .idle, [], log'⟩
  | [], s, t, log, h => by cases h; exact ⟨log, .refl⟩
  | (now, c) :: l, s, t, log, h => by
    rw [List.map_cons, Server.exec] at h
    split at h
    · rename_i hc
      obtain ⟨u, hu, h⟩ := Option.bind_eq_some_iff.1 h
      obtain ⟨log', hrun⟩ := Run.commands hok (log ++ (s.enrolments (.plain now) c).map Prod.snd) h
      exact ⟨log', .head ⟨.command (.plain now) c, fun _ => rfl, hok log now s c hc, .command hu⟩ hrun⟩
    · cases h

end Service

/-- A device and its token. -/
def Trace.device : String := (UuidV4.numbered 200).text

def Trace.pushToken : Value := .str "aaaaaaaaaaaaaaaaaaaa"

def Trace.setPushDevice : Value := message "setPushDevice"
  [("deviceId", .str device), ("token", pushToken), ("foreground", .bool false)]

/-- An account signs up over the connection and registers the device. -/
def Trace.registers (now cid : Nat) : List (Nat × Command) :=
  [(now, .connected cid), (now, .tells cid signUp), (now, .tells cid setPushDevice)]

namespace Service

omit [Extern] in
theorem accounts_agree_registers : letI := Extern.reading [Trace.signUp, Trace.setPushDevice]
    ∃ x, Run Spares (start .default Store.empty true) x ∧ (∃ p, x.server.players.get Trace.account = some p ∧
      p.devices.size = 1) ∧ ∀ id p, x.server.players.get id = some p →
        ∀ now q, x.server.store.account id now = .ok (some q) → q.profile = p.profile := by
  let _ := Extern.reading [Trace.signUp, Trace.setPushDevice]
  have h : (Server.exec (fun env s c => decide (∀ e ∈ s.enrolments env c, ∀ a ∈ e.1.players.entries, a.1 ≠ e.2.player →
      ∀ d ∈ a.2.devices.entries, d.2.idx "token" ≠ e.2.token)) ((Trace.registers 1 1).map (fun e => (.plain e.1, e.2)))
      (.boot .default Store.empty true)).any (fun s => (s.players.get Trace.account).any (fun p => decide (p.devices.size = 1))) =
      true := by
    decide +kernel
  obtain ⟨s, hs, hp⟩ := (Option.any_eq_true _ _).1 h
  obtain ⟨p, hp, hsize⟩ := (Option.any_eq_true _ _).1 hp
  obtain ⟨log, hrun⟩ := Run.commands (G := Spares) (fun log now s c hok => by have h := of_decide_eq_true hok; exact h) [] hs
  have hagree := accounts_agree rfl rfl hrun
  exact ⟨_, hrun, ⟨p, hp, of_decide_eq_true hsize⟩, fun id p hp => (hagree.1 id p hp).1⟩

omit [Extern] in
theorem account_of_toOption {o : Except Unit (Option Player)} {p : Player} (h : o.toOption.join = some p) :
    o = .ok (some p) := by
  cases o with
  | error e => cases h
  | ok x => exact congrArg Except.ok h

omit [Extern] in
/-- **A registration by another account is not written to the file it takes the token from.** -/
theorem accounts_not_agree : letI := Extern.reading [Trace.signUp, Trace.setPushDevice]
    ∃ x, Run (fun _ _ => True) (start .default Store.empty true) x ∧ ∃ id p now q, x.server.players.get id = some p ∧
      x.server.store.account id now = .ok (some q) ∧ q.profile ≠ p.profile := by
  let _ := Extern.reading [Trace.signUp, Trace.setPushDevice]
  have h : (Server.exec (fun _ _ _ => true) ((Trace.registers 1 1 ++ Trace.registers 2 2).map (fun e => (.plain e.1, e.2)))
      (.boot .default Store.empty true)).any (fun s => (s.players.get Trace.account).any (fun p =>
        (s.store.account Trace.account 2).toOption.join.any (fun q =>
          decide (p.devices.size = 0 ∧ q.devices.size = 1)))) = true := by
    decide +kernel
  obtain ⟨s, hs, hp⟩ := (Option.any_eq_true _ _).1 h
  obtain ⟨p, hp, hq⟩ := (Option.any_eq_true _ _).1 hp
  obtain ⟨q, hacc, hq⟩ := (Option.any_eq_true _ _).1 hq
  obtain ⟨log, hrun⟩ := Run.commands (G := fun _ _ => True) (fun _ _ _ _ _ => trivial) [] hs
  refine ⟨_, hrun, Trace.account, p, 2, q, hp, account_of_toOption hacc, fun he => ?_⟩
  have hlen := congrArg (fun x => x.devices.length) he
  simp only [Player.profile, List.length_map] at hlen
  obtain ⟨h0, h1⟩ := of_decide_eq_true hq
  exact absurd ((h1.symm.trans hlen).trans h0) (by decide)

end Service

end Relay
