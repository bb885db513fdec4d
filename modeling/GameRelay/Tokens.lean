import GameRelay.Registrations
/-!
# Tokens — a push token belongs to its last registrant

`Latest` is the last registration of its token.  In every run in which no token is registered while another account's
file has it, or while a notice for it to another account is under way (`Free`), **a token is its last registrant's**, in
memory and on file, and no notice to anybody else is sent to it (`tokens_owned`).
-/
namespace Relay

open Function (update)

/-- The last registration of its token. -/
def Latest (log : List Registration) (g : Registration) : Prop :=
  ∃ pre post, log = pre ++ g :: post ∧ ∀ e ∈ post, e.token ≠ g.token

namespace Latest

variable {log l : List Registration} {g h : Registration}

theorem append (hg : Latest (log ++ l) g) : g ∈ l ∨ Latest log g := by
  obtain ⟨pre, post, he, hpost⟩ := hg
  rcases List.append_eq_append_iff.1 he with ⟨rest, rfl, rfl⟩ | ⟨rest, rfl, hrest⟩
  · exact .inl (List.mem_append_right _ (List.mem_cons_self ..))
  · cases rest with
    | nil =>
      rw [List.nil_append] at hrest
      exact .inl (hrest ▸ List.mem_cons_self ..)
    | cons x rest =>
      obtain ⟨rfl, rfl⟩ := List.cons_eq_cons.1 hrest
      exact .inr ⟨pre, rest, rfl, fun e he => hpost e (List.mem_append_left _ he)⟩

/-- A registration supersedes those of the same token. -/
theorem snoc (hg : Latest (log ++ [h]) g) : g = h ∨ (g.token ≠ h.token ∧ Latest log g) := by
  obtain ⟨pre, post, he, hpost⟩ := hg
  rcases List.eq_nil_or_concat post with rfl | ⟨post, x, rfl⟩
  · exact .inl (List.append_inj_right' he rfl |> List.singleton_inj.1).symm
  · rw [List.concat_eq_append] at he hpost
    have he : log ++ [h] = (pre ++ g :: post) ++ [x] := by rw [he, List.append_assoc]; rfl
    obtain ⟨hlog, hx⟩ := List.append_inj' he rfl
    obtain rfl := List.singleton_inj.1 hx
    exact .inr ⟨fun ht => hpost h (List.mem_append_right _ (List.mem_singleton_self h)) ht.symm, pre, post, hlog,
      fun e he => hpost e (List.mem_append_left _ he)⟩

end Latest

namespace Roll

/-- Every token registered, in memory or on file, is its last registrant's, and so are those of the queued pushes. -/
structure Owned (r : Roll) (log : List Registration) : Prop where
  accounts : ∀ {g}, Latest log g → ∀ {q y}, r.memory q = some y ∨ r.files q = some y → ∀ d ∈ y.devices,
    d.token = g.token → q = g.player ∧ d.id = g.device
  queued : ∀ {g}, Latest log g → ∀ j ∈ r.queued, .str j.token = g.token → j.player = g.player

namespace Owned

variable {r : Roll} {log : List Registration}

/-- An account that gains nothing is written. -/
theorem write (h : r.Owned log) {id : String} {x x' : Profile} (hx : r.memory id = some x ∨ r.files id = some x)
    (hd : x'.devices.Sublist x.devices) : (r.write id x').Owned log := by
  refine ⟨fun hg q y hy d hdy ht => ?_, h.queued⟩
  have hcase : q = id ∧ y = x' ∨ r.memory q = some y ∨ r.files q = some y := by
    rcases hy with hy | hy
    · rcases update_some hy with ⟨rfl, he⟩ | ⟨-, he⟩
      · exact .inl ⟨rfl, (Option.some.inj he).symm⟩
      · exact .inr (.inl he)
    · rcases update_some hy with ⟨rfl, he⟩ | ⟨-, he⟩
      · exact .inl ⟨rfl, (Option.some.inj he).symm⟩
      · exact .inr (.inr he)
  rcases hcase with ⟨rfl, rfl⟩ | hy
  · exact h.accounts hg hx d (hd.subset hdy) ht
  · exact h.accounts hg hy d hdy ht

/-- **What is no registration gives no token away.** -/
theorem move {r' : Roll} (hm : Roll.Moves none r r') (h : r.Owned log) : r'.Owned log := by
  cases hm with
  | same => exact h
  | expired id =>
    refine ⟨fun hg q y hy d hd ht => h.accounts hg (hy.imp (fun hy => ?_) (fun hy => hy)) d hd ht, h.queued⟩
    rcases update_some hy with ⟨-, he⟩ | ⟨-, he⟩
    · cases he
    · exact he
  | opened hid hu hl hd =>
    rename_i id x
    refine ⟨fun hg q y hy d hdy ht => ?_, h.queued⟩
    rcases hy with hy | hy
    all_goals rcases update_some hy with ⟨-, he⟩ | ⟨-, he⟩
    · cases he; rw [hd] at hdy; cases hdy
    · exact h.accounts hg (.inl he) d hdy ht
    · cases he; rw [hd] at hdy; cases hdy
    · exact h.accounts hg (.inr he) d hdy ht
  | wrote hx hid hd => exact h.write hx hd
  | pushed hj =>
    refine ⟨h.accounts, fun hg j hjj ht => ?_⟩
    rcases List.mem_append.1 hjj with hjj | hjj
    · exact h.queued hg j hjj ht
    · obtain ⟨x, d, hx, hd, -, htok⟩ := hj j hjj
      exact (h.accounts hg (.inl hx) d hd (htok.trans ht)).1

/-- **A registration takes the token over**, if nobody else has it on file or in the queue. -/
theorem registered {r' : Roll} {g : Registration} (hm : Roll.Moves (some g) r r') (h : r.Owned log)
    (hfiles : ∀ q y, q ≠ g.player → r.files q = some y → ∀ d ∈ y.devices, d.token ≠ g.token)
    (hqueued : ∀ j ∈ r.queued, j.player ≠ g.player → .str j.token ≠ g.token) : r'.Owned (log ++ [g]) := by
  cases hm with
  | registered hp hid hd =>
    rename_i x x'
    have hown : ∀ {g'}, Latest (log ++ [g]) g' → ∀ d ∈ x'.devices, d.token = g'.token →
        g.player = g'.player ∧ d.id = g'.device := by
      intro g' hg d hdx ht
      rcases hg.snoc with rfl | ⟨hne, hg⟩
      · rcases hd d hdx with ⟨-, hn⟩ | ⟨hdev, -⟩
        · exact absurd ht hn
        · exact ⟨rfl, hdev⟩
      · rcases hd d hdx with ⟨hdx, -⟩ | ⟨-, htok⟩
        · exact h.accounts hg (.inl hp) d hdx ht
        · exact absurd (ht.symm.trans htok) hne
    refine ⟨fun hg q y hy d hdy ht => ?_, fun hg j hj ht => ?_⟩
    · rcases hy with hy | hy
      all_goals rcases update_some hy with ⟨rfl, he⟩ | ⟨hne, he⟩
      · cases he
        exact hown hg d hdy ht
      · -- another account in memory: it has lost the token
        obtain ⟨y₀, hy₀, rfl⟩ := Option.map_eq_some_iff.1 he
        obtain ⟨hdy, hn⟩ := List.mem_filter.1 hdy
        rcases hg.snoc with rfl | ⟨-, hg⟩
        · exact absurd ht (of_decide_eq_true hn)
        · exact h.accounts hg (.inl hy₀) d hdy ht
      · cases he
        exact hown hg d hdy ht
      · rcases hg.snoc with rfl | ⟨-, hg⟩
        · exact absurd ht (hfiles q y hne he d hdy)
        · exact h.accounts hg (.inr he) d hdy ht
    · rcases hg.snoc with rfl | ⟨-, hg⟩
      · by_contra hne
        exact hqueued j hj hne ht
      · exact h.queued hg j hj ht

end Owned

end Roll

variable [Extern]

namespace Roll

omit [Extern] in
theorem Trail.owned {r r' : Roll} {l : List (Server × Registration)} {log : List Registration} (h : Roll.Trail r l r')
    (hfree : ∀ e ∈ l, (∀ q y, q ≠ e.2.player → e.1.roll.files q = some y → ∀ d ∈ y.devices, d.token ≠ e.2.token) ∧
      ∀ j ∈ e.1.legacyPushes, j.player ≠ e.2.player → .str j.token ≠ e.2.token)
    (ho : r.Owned log) : r'.Owned (log ++ l.map Prod.snd) := by
  induction h with
  | refl => rwa [List.map_nil, List.append_nil]
  | quiet _ hm ih => exact (ih hfree).move hm
  | @registered r' l s g _ hm ih =>
    have hg := hfree (s, g) (List.mem_append_right _ (List.mem_singleton_self _))
    have := (ih (fun e he => hfree e (List.mem_append_left _ he))).registered hm hg.1 hg.2
    rwa [List.append_assoc, ← show [(s, g)].map Prod.snd = [g] from rfl, ← List.map_append] at this

end Roll

/-- The account whose devices a delivery goes through. -/
def PushTask.current : PushTask → Option Target
  | .target _ t _ | .asked _ t _ _ | .answered _ t _ _ _ => some t
  | _ => none

namespace Service

/-- A notice to the account is sent to the token. -/
def Sends (x : Service) (id : String) (token : Value) : Act → Prop
  | .pass env answer => ∃ d t device jobs, (x.task.step env answer x.server).2 = .asked d t device jobs ∧
      lowerText t.id = id ∧ device.2.idx "token" = token
  | .take => ∃ j ∈ x.server.legacyPushes, j.player = id ∧ .str j.token = token
  | _ => False

/-- The step registers no token that another account's file has, or that a notice under way to another account will be
sent to. -/
def Free (x : Service) : Act → Prop
  | .command env c => ∀ e ∈ x.server.enrolments env c,
      (∀ q y, q ≠ e.2.player → e.1.roll.files q = some y → ∀ d ∈ y.devices, d.token ≠ e.2.token) ∧
      (∀ j ∈ e.1.legacyPushes, j.player ≠ e.2.player → .str j.token ≠ e.2.token) ∧
      ∀ t, x.task.current = some t → lowerText t.id ≠ e.2.player → ∀ d ∈ t.devices, d.2.idx "token" ≠ e.2.token
  | _ => True

/-- A token is its last registrant's, also in the devices a delivery goes through. -/
structure Owned (x : Service) : Prop where
  roll : x.server.roll.Owned x.log
  task : ∀ {g}, Latest x.log g → ∀ {t}, x.task.current = some t → ∀ d ∈ t.devices, d.2.idx "token" = g.token →
    lowerText t.id = g.player

/-- Between commands nothing is given away. -/
theorem Rolls.owned {x : Service} {a : Act} {r : Roll} (h : Rolls x a r) (ha : ∀ env c, a ≠ .command env c)
    (ho : x.server.roll.Owned x.log) : r.Owned x.log := by
  cases h with
  | same => exact ho
  | trail he => exact absurd he (ha _ _)
  | forgot he ht hy => exact ho.write (.inl hy) List.filter_sublist
  | filed he ht hn hy =>
    refine ⟨fun hg q y hq d hd htok => ?_, ho.queued⟩
    rcases hq with hq | hq
    · exact ho.accounts hg (.inl hq) d hd htok
    · rcases update_some hq with ⟨rfl, he⟩ | ⟨-, he⟩
      · cases he
        exact ho.accounts hg (.inr hy) d (List.mem_of_mem_filter hd) htok
      · exact ho.accounts hg (.inr he) d hd htok
  | took he => exact ⟨ho.accounts, fun _ _ h => nomatch h⟩
  | dropped he hpl hd =>
    refine ⟨fun hg q y hq d hd htok => ?_, ho.queued⟩
    rcases hq with hq | hq
    · rcases update_some hq with ⟨rfl, he⟩ | ⟨-, he⟩
      · cases he
        exact ho.accounts hg (.inl (Server.memory_eq hpl)) d (List.mem_of_mem_filter hd) htok
      · exact ho.accounts hg (.inl he) d hd htok
    · exact ho.accounts hg (.inr hq) d hd htok
  | restarted => exact ⟨fun hg q y hq => ho.accounts hg (.inr (hq.resolve_left (fun h => nomatch h))), fun _ _ h => nomatch h⟩

omit [Extern] in
/-- A delivery goes on through the devices of an account, or looks up the next one. -/
theorem step_current (env : Env) (answer : Answer) (s : Server) {task : PushTask} {t : Target}
    (h : (task.step env answer s).2.current = some t) :
    (∃ t₀, task.current = some t₀ ∧ t.id = t₀.id ∧ t.devices ⊆ t₀.devices) ∨ s.lookup env t.id = some t := by
  cases task with
  | idle => cases h
  | due l => cases l <;> cases h
  | job d jobs =>
    rw [PushTask.step] at h
    split at h
    · cases h
    · rename_i v vs hv
      split at h
      · cases h
      · rename_i t' ht'
        cases h
        obtain ⟨id, -, hl⟩ := Option.bind_eq_some_iff.1 ht'
        obtain ⟨p, hp, rfl⟩ := Option.map_eq_some_iff.1 hl
        exact .inr hl
  | target d t' jobs =>
    rw [PushTask.step] at h
    split at h
    · cases h
    · rename_i device devices hdev
      have hsub : devices ⊆ t'.devices := by
        rw [hdev]
        exact List.subset_cons_self ..
      repeat' split at h
      all_goals cases h
      all_goals exact .inl ⟨t', rfl, rfl, hsub⟩
  | asked d t' device jobs => cases answer <;> (cases h; exact .inl ⟨_, rfl, rfl, List.Subset.refl _⟩)
  | answered d t' device invalid jobs =>
    cases h
    exact .inl ⟨_, rfl, rfl, List.Subset.refl _⟩

omit [Extern] in
/-- The device the provider is asked to send to is one of those left. -/
theorem step_asked {env : Env} {answer : Answer} {s : Server} {task : PushTask} {d : Delivery} {t : Target}
    {device : String × Value} {jobs : List (String × Value)}
    (h : (task.step env answer s).2 = .asked d t device jobs) :
    ∃ t₀, task.current = some t₀ ∧ t.id = t₀.id ∧ device ∈ t₀.devices := by
  cases task with
  | idle => cases h
  | due l => cases l <;> cases h
  | job d jobs =>
    rw [PushTask.step] at h
    split at h
    · cases h
    · split at h <;> cases h
  | target d t' jobs =>
    rw [PushTask.step] at h
    split at h
    · cases h
    · rename_i device' devices hdev
      repeat' split at h
      all_goals cases h
      exact ⟨t', rfl, rfl, by rw [hdev]; exact List.mem_cons_self ..⟩
  | asked d t' device jobs => cases answer <;> cases h
  | answered d t' device invalid jobs => cases h

omit [Extern] in
/-- The devices looked up are the account's. -/
theorem lookup_owned {env : Env} {s : Server} {log : List Registration} (hp : s.roll.Proper) (ho : s.roll.Owned log)
    {id : String} {t : Target} (h : s.lookup env id = some t) {g : Registration} (hg : Latest log g)
    {d : String × Value} (hd : d ∈ t.devices) (ht : d.2.idx "token" = g.token) : lowerText id = g.player := by
  obtain ⟨p, hk, rfl⟩ := Option.map_eq_some_iff.1 h
  have hdev : deviceOf d ∈ p.profile.devices := List.mem_map_of_mem hd
  unfold Server.knownAccount at hk
  split at hk
  · rename_i p' hget
    cases hk
    have hm := Server.memory_eq hget
    rw [(hp.memory hm).2.2]
    exact (ho.accounts hg (.inl hm) _ hdev ht).1
  · split at hk
    · rename_i o hacc
      subst hk
      obtain ⟨hid, hfile⟩ := Server.account_roll hp hacc
      rw [← hid]
      exact (ho.accounts hg (.inr hfile) _ hdev ht).1
    · cases hk

/-- **Every step that registers a free token keeps the owners.** -/
theorem Owned.step {x y : Service} {a : Act} (ho : Owned x) (hw : a.Writes) (hp : x.server.roll.Proper) (hg : Free x a)
    (hs : Step x a y) : Owned y := by
  have hrolls := hs.rolls hw hp
  cases hs with
  | command h =>
    refine ⟨Roll.Trail.owned (Server.step_trail hw hp h) (fun e he => ⟨(hg e he).1, (hg e he).2.1⟩) ho.roll, ?_⟩
    intro g hl t ht d hd htok
    rcases hl.append with hl | hl
    · obtain ⟨e, he, rfl⟩ := List.mem_map.1 hl
      by_contra hne
      exact (hg e he).2.2 t ht hne d hd htok
    · exact ho.task hl ht d hd htok
  | pass =>
    refine ⟨hrolls.owned (fun _ _ h => nomatch h) ho.roll, fun {g} hl {t} ht d hd htok => ?_⟩
    rcases step_current _ _ _ ht with ⟨t₀, ht₀, hid, hsub⟩ | hlook
    · rw [hid]
      exact ho.task hl ht₀ d (hsub hd) htok
    · exact lookup_owned hp ho.roll hlook hl hd htok
  | take => exact ⟨hrolls.owned (fun _ _ h => nomatch h) ho.roll, ho.task⟩
  | answered => exact ⟨hrolls.owned (fun _ _ h => nomatch h) ho.roll, ho.task⟩
  | restart => exact ⟨hrolls.owned (fun _ _ h => nomatch h) ho.roll, fun _ _ h => nomatch h⟩

theorem Run.owned {config : Config} {store : Store} {push : Bool} {x : Service} (he : store.enabled = true)
    (ha : store.accounts = IndexMap.empty) (h : Run Free (start config store push) x) : Owned x := by
  induction h with
  | refl =>
    refine ⟨⟨fun _ q y hy => ?_, fun _ _ h => ?_⟩, fun _ _ h => nomatch h⟩
    · rw [start_roll config push ha] at hy
      rcases hy with hy | hy <;> cases hy
    · rw [start_roll config push ha] at h
      cases h
  | tail hrun hs ih =>
    obtain ⟨a, hw, hg, hs⟩ := hs
    exact ih.step hw (Run.proper he ha hrun) hg hs

/-- **A token is its last registrant's**: no other account and no other device has it, in memory or in the account store,
and no notice to another account is sent to it. -/
theorem tokens_owned {config : Config} {store : Store} {push : Bool} {x : Service} (he : store.enabled = true)
    (ha : store.accounts = IndexMap.empty) (h : Run Free (start config store push) x) {g : Registration}
    (hg : Latest x.log g) :
    (∀ q p, x.server.players.get q = some p → ∀ device d, p.devices.get device = some d → d.idx "token" = g.token →
      q = g.player ∧ device = g.device) ∧
    (∀ q now p, x.server.store.account q now = .ok (some p) → ∀ device d, p.devices.get device = some d →
      d.idx "token" = g.token → lowerText q = g.player ∧ device = g.device) ∧
    ∀ a id, Sends x id g.token a → id = g.player := by
  have hp := Run.proper he ha h
  have ho := Run.owned he ha h
  have hdev : ∀ {p : Player} {device : String} {d : Value}, p.devices.get device = some d →
      deviceOf (device, d) ∈ p.profile.devices := fun h => List.mem_map_of_mem (IndexMap.mem_entries.2 h)
  refine ⟨fun q p hq device d hd ht => ho.roll.accounts hg (.inl (Server.memory_eq hq)) _ (hdev hd) ht,
    fun q now p hq device d hd ht => ?_, fun a id hs => ?_⟩
  · obtain ⟨hid, hfile⟩ := Server.account_roll hp hq
    rw [← hid]
    exact ho.roll.accounts hg (.inr hfile) _ (hdev hd) ht
  · cases a with
    | pass env answer =>
      obtain ⟨d, t, device, jobs, hstep, rfl, ht⟩ := hs
      obtain ⟨t₀, ht₀, hid, hmem⟩ := step_asked hstep
      rw [hid]
      exact ho.task hg ht₀ device hmem ht
    | take =>
      obtain ⟨j, hj, rfl, ht⟩ := hs
      exact ho.roll.queued hg j hj ht
    | _ => cases hs

/-- The last of these commands makes this registration. -/
theorem Run.registers {G : Service → Act → Prop} {ok : Env → Server → Command → Bool}
    (hok : ∀ log now s c, ok (.plain now) s c = true → G ⟨s, .idle, [], log⟩ (.command (.plain now) c))
    {l : List (Nat × Command)} {s t u : Server} {now : Nat} {c : Command} {g : Registration}
    (ht : Server.exec ok (l.map (fun e => (.plain e.1, e.2))) s = some t) (hc : ok (.plain now) t c = true)
    (hu : t.step (.plain now) c = some u) (hg : (t.enrolments (.plain now) c).map Prod.snd = [g]) :
    ∃ log, Run G ⟨s, .idle, [], []⟩ ⟨u, .idle, [], log ++ [g]⟩ := by
  obtain ⟨log, hrun⟩ := Run.commands hok [] ht
  have hstep : Step ⟨t, .idle, [], log⟩ (.command (.plain now) c) ⟨u, .idle, [], log ++ [g]⟩ := hg ▸ .command hu
  exact ⟨log, hrun.tail ⟨.command (.plain now) c, fun _ => rfl, hok log now t c hc, hstep⟩⟩

omit [Extern] in
theorem latest_snoc (log : List Registration) (g : Registration) : Latest (log ++ [g]) g :=
  ⟨log, [], rfl, fun _ h => nomatch h⟩

/-- Does the command register only tokens of the one account on file, with no push queued? -/
def alone (env : Env) (s : Server) (c : Command) : Bool :=
  (s.enrolments env c).all (fun e => e.1.store.accounts.keys.all (fun k => decide (k = e.2.player)) &&
    e.1.legacyPushes.isEmpty)

theorem free_of_alone {log : List Registration} {env : Env} {s : Server} {c : Command} (h : alone env s c = true) :
    Free ⟨s, .idle, [], log⟩ (.command env c) := by
  intro e he
  obtain ⟨hkeys, hq⟩ := Bool.and_eq_true_iff.1 ((List.all_eq_true.1 h) e he)
  refine ⟨fun q y hne hy => ?_, fun j hj => ?_, fun t ht => nomatch ht⟩
  · obtain ⟨o, ho, -⟩ := Option.bind_eq_some_iff.1 (show (e.1.store.accounts.get q).bind (Option.map fileProfile) = some y from hy)
    exact absurd (of_decide_eq_true (List.all_eq_true.1 hkeys q (IndexMap.mem_keys.2 ⟨o, ho⟩))) hne
  · rw [List.isEmpty_iff.1 hq] at hj
    cases hj

omit [Extern] in
theorem tokens_owned_registered : letI := Extern.reading [Trace.signUp, Trace.setPushDevice]
    ∃ x g, Run Free (start .default Store.empty true) x ∧ Latest x.log g ∧ g.token = Trace.pushToken ∧
      ∀ q p, x.server.players.get q = some p → ∀ device d, p.devices.get device = some d →
        d.idx "token" = g.token → q = g.player ∧ device = g.device := by
  let _ := Extern.reading [Trace.signUp, Trace.setPushDevice]
  have h : (Server.exec alone (([(1, .connected 1), (1, .tells 1 Trace.signUp)] : List (Nat × Command)).map
      (fun e => (.plain e.1, e.2))) (.boot .default Store.empty true)).any (fun t =>
      alone (.plain 1) t (.tells 1 Trace.setPushDevice) &&
      (t.step (.plain 1) (.tells 1 Trace.setPushDevice)).isSome &&
      decide ((t.enrolments (.plain 1) (.tells 1 Trace.setPushDevice)).length = 1) &&
      ((t.enrolments (.plain 1) (.tells 1 Trace.setPushDevice)).map Prod.snd).all (fun g =>
        decide (g.token = Trace.pushToken))) = true := by
    decide +kernel
  obtain ⟨t, ht, h⟩ := (Option.any_eq_true _ _).1 h
  simp only [Bool.and_eq_true] at h
  obtain ⟨⟨⟨hc, hu⟩, hone⟩, hg⟩ := h
  obtain ⟨u, hu⟩ := Option.isSome_iff_exists.1 hu
  obtain ⟨g, he⟩ := List.length_eq_one_iff.1 ((List.length_map Prod.snd).trans (of_decide_eq_true hone))
  rw [he, List.all_cons, Bool.and_eq_true] at hg
  obtain ⟨log, hrun⟩ := Run.registers (G := Free) (fun log now s c h => free_of_alone h) ht hc hu he
  exact ⟨_, g, hrun, latest_snoc log g, of_decide_eq_true hg.1,
    (tokens_owned rfl rfl hrun (latest_snoc log g)).1⟩

end Service

/-- An account registers the token and leaves; another one signs up after it has expired. -/
def Trace.secondSignUp : List (Nat × Command) := Trace.registers 1 1 ++
  [(1, .disconnect 1), (300002, .connected 2), (300002, .tells 2 Trace.signUp)]

namespace Service

omit [Extern] in
/-- **A token registered by another account stays in the file of an account that has expired.** -/
theorem token_of_two : letI := Extern.reading [Trace.signUp, Trace.setPushDevice]
    ∃ x g q p device d, Run (fun _ _ => True) (start .default Store.empty true) x ∧ Latest x.log g ∧
      x.server.players.get q = none ∧ x.server.store.account q 300003 = .ok (some p) ∧
      p.devices.get device = some d ∧ d.idx "token" = g.token ∧ lowerText q ≠ g.player := by
  let _ := Extern.reading [Trace.signUp, Trace.setPushDevice]
  have h : (Server.exec (fun _ _ _ => true) (Trace.secondSignUp.map (fun e => (.plain e.1, e.2)))
      (.boot .default Store.empty true)).any (fun t =>
      (t.step (.plain 300002) (.tells 2 Trace.setPushDevice)).any (fun u =>
        (u.players.get Trace.account).isNone &&
        decide ((t.enrolments (.plain 300002) (.tells 2 Trace.setPushDevice)).length = 1) &&
        ((t.enrolments (.plain 300002) (.tells 2 Trace.setPushDevice)).map Prod.snd).all (fun g =>
          decide (lowerText Trace.account ≠ g.player) &&
          (u.store.account Trace.account 300003).toOption.join.any (fun p =>
            (p.devices.get Trace.device).any (fun d => decide (d.idx "token" = g.token)))))) = true := by
    decide +kernel
  obtain ⟨t, ht, h⟩ := (Option.any_eq_true _ _).1 h
  obtain ⟨u, hu, h⟩ := (Option.any_eq_true _ _).1 h
  simp only [Bool.and_eq_true] at h
  obtain ⟨⟨hnone, hone⟩, h⟩ := h
  obtain ⟨g, he⟩ := List.length_eq_one_iff.1 ((List.length_map Prod.snd).trans (of_decide_eq_true hone))
  rw [he, List.all_cons, Bool.and_eq_true, Bool.and_eq_true] at h
  obtain ⟨⟨hne, h⟩, -⟩ := h
  obtain ⟨p, hacc, hd⟩ := (Option.any_eq_true _ _).1 h
  obtain ⟨d, hd, htok⟩ := (Option.any_eq_true _ _).1 hd
  obtain ⟨log, hrun⟩ := Run.registers (G := fun _ _ => True) (fun _ _ _ _ _ => trivial) ht rfl hu he
  exact ⟨_, g, Trace.account, p, Trace.device, d, hrun, latest_snoc log g, Option.isNone_iff_eq_none.1 hnone,
    account_of_toOption hacc, hd, of_decide_eq_true htok, of_decide_eq_true hne⟩

end Service
end Relay
