import GameRelay.Outcomes
import GameRelay.Queues
/-!
# Rejections — a rejected room command changes nothing

`Hears` is a room command taken up, when it is received or when it comes due.  **Answered with an error, it changed
nothing** (`rejected_changes_nothing`), when what the sender would be told of a change to its saved room fits.  It does
in every server that found no room files when it started: such a server has a saved room only where a room was created
first, and the listing of a room is longer (`Founded`).
-/
namespace Relay

variable [Extern]

/-- There is no room yet, live or on file, or some room passed the size check of its settings. -/
def World.Founded (c : Config) (w : World) : Prop :=
  ((∀ id, w.rooms id = none) ∧ ∀ k, w.files k = none) ∨ ∃ r, c.RoomFits r

omit [Extern] in
theorem World.Left.void {p : String} {d : Bool} {w w' : World} (h : w.Left p d w')
    (hw : (∀ id, w.rooms id = none) ∧ ∀ k, w.files k = none) : (∀ id, w'.rooms id = none) ∧ ∀ k, w'.files k = none := by
  have hdrop : ∀ id, dropSeats w.rooms p d id = none := by
    intro id
    unfold dropSeats
    rw [hw.1 id]
    split <;> rfl
  cases h with
  | nowhere hq hr => exact ⟨hdrop, hw.2⟩
  | deleted hq hid hr he hp | slept hq hid hr he hp hs | kept hq hid hr he hp | stayed hq hid hr hf =>
    rw [hdrop] at hr
    cases hr

/-- **The first room passes the size check.** -/
theorem Effect.founded {a : Act} {w w' : World} (h : Effect a w w') (hw : w.Founded w.config) : w'.Founded w.config := by
  rcases hw with hw | hw
  case inr => exact .inr hw
  have hsits : ∀ {p id : String} {r : Room}, ¬ w.Sits p id r := fun h => by
    have := h.2
    rw [hw.1] at this
    cases this
  cases h with
  | gone hl hp hq hc h => exact .inl (h.void hw)
  | departed h => exact .inl (h.void hw)
  | left h => exact .inl (h.void hw)
  | expired hq hc hf => exact .inl ⟨fun id => by show (w.rooms id).map _ = none; rw [hw.1]; rfl, hw.2⟩
  | timedOut => exact .inl ⟨fun id => by show (w.rooms id).map _ = none; rw [hw.1]; rfl, hw.2⟩
  | created hq hc hr hid hfile hhist hlow hroom hmax hfit hfree => exact .inr ⟨_, hfit⟩
  | entered hq hc hr hf he hm hid hpw =>
    rcases hf with ⟨-, hr⟩ | ⟨-, -, _, _, _, hfile, -⟩
    · rw [hw.1] at hr
      cases hr
    · rw [hw.2] at hfile
      cases hfile
  | refused hm hid hpw hq hroom hr ha hp he =>
    rw [hw.1] at hr
    cases hr
  | slept hr hp ha h =>
    rw [hw.1] at hr
    cases hr
  | edited hs he => exact (hsits hs).elim
  | wrote hs hp hb hu hid hst => exact (hsits hs).elim
  | rejected hs hp hb hu hid hst => exact (hsits hs).elim
  | _ => exact .inl hw

theorem Move.founded {a : Act} {w w' : World} {c : Config} (h : Move a w w') (hc : w.config = c) (hw : w.Founded c) :
    w'.Founded c := by
  obtain ⟨w₁, he, l, q, -, -, rfl⟩ := h
  subst hc
  exact he.founded hw

theorem Chain.founded {P : Act → World → Prop} {w w' : World} {c : Config} (h : Chain Move P w w') (hb : w.Base c)
    (hw : w.Founded c) : w'.Base c ∧ w'.Founded c :=
  h.invariant (I := fun w => w.Base c ∧ w.Founded c)
    (fun _ _ _ _ hm hw => ⟨hm.base hw.1, hm.founded hw.1.config hw.2⟩) ⟨hb, hw⟩

namespace Server

/-- The connection sends its next frame. -/
def sendNext (s : Server) (cid : Nat) : Option Server :=
  (s.connections.get cid).bind fun c =>
  match c.out with
  | m :: ms => some (s.setConnection cid { c with out := ms, queued := c.queued - m.sendCost })
  | [] => none

theorem sendNext_world {s t : Server} {cid : Nat} (h : s.sendNext cid = some t) : t.world = s.world := by
  obtain ⟨c, hc, h⟩ := Option.bind_eq_some_iff.1 h
  split at h
  · cases h
    exact world_setConnection_same hc rfl
  · cases h

/-- The states of a server that starts over these files: its steps, and frames its connections send. -/
inductive Reached (config : Config) (store : Store) (push : Bool) : Server → Prop
  | boot : Reached config store push (boot config store push)
  | step {s t : Server} (h : Reached config store push s) (env : Env) (c : Command) (hs : s.step env c = some t) :
      Reached config store push t
  | sent {s t : Server} (h : Reached config store push s) {cid : Nat} (hs : s.sendNext cid = some t) :
      Reached config store push t

theorem Reached.run {config : Config} {store : Store} {push : Bool} {s t : Server} {G : Env → Server → Command → Prop}
    (h : Reached config store push s) (hr : Run G s t) : Reached config store push t := by
  induction hr with
  | refl => exact h
  | tail _ hs ih =>
    obtain ⟨env, c, -, hs⟩ := hs
    exact ih.step env c hs

theorem Reached.base {config : Config} {store : Store} {push : Bool} {s : Server} (h : Reached config store push s) :
    s.world.Base config := by
  induction h with
  | boot => exact boot_base config store push
  | step _ env c hs ih => exact ih.chain (step_chain ih hs)
  | sent _ hs ih =>
    rw [sendNext_world hs]
    exact ih

theorem Reached.founded {config : Config} {store : Store} {push : Bool} {s : Server} (h : Reached config store push s)
    (hfiles : ∀ k, store.rooms.get k = none) : s.world.Founded config := by
  induction h with
  | boot => exact .inl ⟨fun _ => rfl, hfiles⟩
  | step h env c hs ih => exact (Chain.founded (step_chain h.base hs) h.base ih).2
  | sent _ hs ih =>
    rw [sendNext_world hs]
    exact ih

/-- The server takes up a room command of this connection in `t`, on receipt or when it is due, and is then in `u`. -/
inductive Hears (env : Env) (s : Server) (cid : Nat) (m : String) : Server → Server → Prop
  | received {txt : String} {v : Value} {u : Server} (hp : Protocol.parse txt = some v) (hm : v.idx "method" = .str m)
      (hu : s.step env (.receive cid (.text txt)) = some u) : Hears env s cid m s u
  | due {txt : String} {v : Value} {t u : Server} (he : s.Executes env .sweep t cid (.text txt))
      (hp : Protocol.parse txt = some v) (hm : v.idx "method" = .str m)
      (hu : (t.dispatch env cid (.text txt) none).state = some u) : Hears env s cid m t u

/-- A due frame is executed in a state that keeps what every move keeps. -/
theorem Executes.due_chain {env : Env} {s t : Server} {cid : Nat} {frame : Frame} {config : Config}
    (h : s.Executes env .sweep t cid frame) (hb : s.world.Base config) :
    ∃ w P, w.rooms = s.world.rooms ∧ w.files = s.world.files ∧ w.Base config ∧ Chain Move P w t.world := by
  generalize hc : Command.sweep = c at h
  cases h with
  | text | binary => cases hc
  | @due pre post d u k hq ht hd hk hrun =>
    -- the run up to the frame is that of a server whose queue ends there
    have hsub : ({ s with delayed := pre } : Server).world.Queued := fun x hx => hb.queued x (by
      show x ∈ s.delayed
      rw [hq]
      exact List.mem_append_left _ hx)
    have hb' : ({ s with delayed := [] } : Server).world.Base s.config :=
      ⟨rfl, ⟨hb.keyed.seats, hb.keyed.rooms⟩, (fun _ h => nomatch h)⟩
    have hrun : (runDelayed env pre { s with delayed := [] }).All (fun u => PlayedBy env _ .sweep _ u.world) :=
      runDelayed_done hsub pre [] { s with delayed := [] } rfl rfl hb'
    rw [ht] at hrun
    have hcfg : s.config = config := hb.config
    have hw : (u.setConnection d.cid (unqueue d k)).world = u.world := world_setConnection_same hk rfl
    exact ⟨({ s with delayed := [] } : Server).world, _, rfl, rfl, hcfg ▸ hb', by rw [hw]; exact PlayedBy.done hrun⟩

/-- A due text frame is a validated message of the account of its connection. -/
theorem Executes.due_valid {env : Env} {s t : Server} {cid : Nat} {txt : String} {v : Value} {config : Config}
    (h : s.Executes env .sweep t cid (.text txt)) (hb : s.world.Base config) (ht : t.world.Base config)
    (hv : Protocol.parse txt = some v) :
    Protocol.validate v t.config.maxRoomPlayers t.config.maxAccounts = true ∧ ∃ p, t.Speaks cid p := by
  generalize hc : Command.sweep = c at h
  generalize hf : Frame.text txt = frame at h
  cases h with
  | text | binary => cases hc
  | @due pre post d u k hq hrun hd hk hmay =>
    obtain ⟨v', hv', hvalid⟩ := hb.queued d (by
      show d ∈ s.delayed
      rw [hq]
      exact List.mem_append_right _ List.mem_cons_self) txt hf.symm
    obtain rfl : v' = v := Option.some.inj (hv'.symm.trans hv)
    refine ⟨?_, mayRun_speaks hmay (IndexMap.get_insert_self _ _ _) rfl⟩
    have hcfg : (u.setConnection d.cid (unqueue d k)).config = s.world.config := ht.config.trans hb.config.symm
    rw [hcfg]
    exact hvalid

/-- A room that passed the size check of its settings leaves room for what its host is told later. -/
theorem Announces.of_founded (hryu : ∀ n, (Extern.ryuJs n).utf8ByteSize ≤ 25) {config : Config} {t : Server}
    (hb : t.world.Base config) (hf : t.world.Founded config) (cid : Nat) (m : String) : t.Announces cid m := by
  intro p id r _ hsits _
  rcases hf with ⟨hnone, -⟩ | ⟨r₀, s₀, hs₀, hfit⟩
  · have hr := hsits.2
    rw [hnone] at hr
    cases hr
  · have hcfg : t.config = s₀.config := hb.config.trans hs₀.symm
    have hsize := numberSize_le hryu (r.revision + 1)
    exact ⟨fun _ => by rw [hcfg]; exact confirms_fit hfit (by decide),
      fun _ => by rw [hcfg]; exact confirms_fit hfit (by omega)⟩

/-- **A room command answered with an error changed nothing**, and nobody else is told anything, in a server that found
no room files when it started, or when what the sender is told of a change to its saved room fits. -/
theorem rejected_changes_nothing (hryu : ∀ n, (Extern.ryuJs n).utf8ByteSize ≤ 25) {config : Config} {store : Store}
    {push : Bool} {s t u : Server} {env : Env} {cid : Nat} {m code : String} (hs : Reached config store push s)
    (h : s.Hears env cid m t u) (hm : m ∈ roomCommands)
    (hfit : (∀ k, store.rooms.get k = none) ∨ t.Announces cid m) (ha : t.Answered u cid code) : t.Intact cid u := by
  have htell : t.world.Base config → ((∀ k, store.rooms.get k = none) → t.world.Founded config) → t.Announces cid m :=
    fun hb hf => hfit.elim (fun hfiles => .of_founded hryu hb (hf hfiles) cid m) (fun h => h)
  cases h with
  | received hp hname hu =>
    have htell := htell hs.base hs.founded
    exact ((receive_outcome hryu env hp hname hm htell).of_state hu).intact ha
  | due he hp hname hu =>
    obtain ⟨w, P, hrooms, hfiles, hbase, hchain⟩ := he.due_chain hs.base
    have hbt := hbase.chain hchain
    have htell := htell hbt (fun hnone => by
      refine (hchain.founded hbase ?_).2
      have := hs.founded hnone
      unfold World.Founded at this ⊢
      rw [hrooms, hfiles]
      exact this)
    obtain ⟨hvalid, p, hspeaks⟩ := he.due_valid hs.base hbt hp
    have hv : t.Valid _ _ m := ⟨hp, hvalid, by rw [hname]; rfl⟩
    exact ((dispatch_outcome hryu env hv hspeaks hm htell (fun _ (h : none = some _) => nomatch h)).of_state hu).intact ha

omit [Extern] in
/-- A guest starts no game. -/
theorem rejected_changes_nothing_guest :
    letI := Extern.reading [Trace.signUp, Trace.createRoom, Trace.enterRoom, Trace.startGame]
    ∃ t u, Reached .default .empty false t ∧ t.Answered u 2 "not_room_owner" ∧ t.Intact 2 u := by
  let _ := Extern.reading [Trace.signUp, Trace.createRoom, Trace.enterRoom, Trace.startGame]
  have h : (exec (fun _ _ _ => true) Trace.shared (boot .default .empty false)).any (fun t =>
      (t.step (Env.plain 1) (.tells 2 Trace.startGame)).any (fun u =>
        decide (u.offered = t.offered ++ [(2, .text (errorData "not_room_owner"))])) &&
      decide (Protocol.parse (plainText Trace.startGame) = some Trace.startGame)) = true := by
    decide +kernel
  obtain ⟨t, ht, h⟩ := (Option.any_eq_true _ _).1 h
  obtain ⟨hu, hparse⟩ := Bool.and_eq_true_iff.1 h
  obtain ⟨u, hu, hoff⟩ := (Option.any_eq_true _ _).1 hu
  have hreach : Reached .default .empty false t :=
    Reached.boot.run (exec_run (G := fun _ _ _ => True) (fun _ _ _ _ => trivial) ht)
  have ha : t.Answered u 2 "not_room_owner" :=
    ⟨_, _, of_decide_eq_true hoff, List.mem_singleton.2 rfl, rfl, rfl⟩
  exact ⟨t, u, hreach, ha, rejected_changes_nothing (fun _ => show "0".utf8ByteSize ≤ 25 by decide) hreach
    (.received (of_decide_eq_true hparse) rfl hu) (by decide) (.inl (fun _ => rfl)) ha⟩

end Server

namespace Trace

/-- The first account begins an upload as the host its room has after waking. -/
def beginAgain : Value := message "beginSession"
  [("requestId", .str request.text), ("revision", .ofNat 0), ("generation", .ofNat 1), ("size", .ofNat 1)]

/-- A short limit on queues. -/
def tight : Config := { Config.default with maxBufferedBytes := 100 }

end Trace

namespace Server

omit [Extern] in
/-- **An upload begins, and its host is told `response_too_large`**, over the files of a server with longer queues. -/
theorem rejected_upload_begun :
    letI := Extern.reading [Trace.signUp, Trace.createRoom, Trace.startGame, Trace.leaveRoom, Relay.Trace.signIn,
      Trace.enterRoom, Trace.beginAgain]
    ∃ before t u, Run (fun _ _ _ => True) (boot .default .empty false) before ∧ Trace.tight.Admitted ∧
      Reached Trace.tight before.store false t ∧ t.Hears (Env.plain 1) 1 "beginSession" t u ∧
      t.Answered u 1 "response_too_large" ∧ ¬ t.Intact 1 u := by
  let _ := Extern.reading [Trace.signUp, Trace.createRoom, Trace.startGame, Trace.leaveRoom, Relay.Trace.signIn,
    Trace.enterRoom, Trace.beginAgain]
  have h : (exec (fun _ _ _ => true) (Trace.started ++ [(.plain 1, .tells 1 Trace.leaveRoom)])
      (boot .default .empty false)).any (fun b =>
    (exec (fun _ _ _ => true) [(.plain 1, .connected 1), (.plain 1, .tells 1 Relay.Trace.signIn)]
      (boot Trace.tight b.store false)).any (fun s₁ =>
    (s₁.sendNext 1).any (fun s₂ =>
    (exec (fun _ _ _ => true) [(.plain 1, .tells 1 Trace.enterRoom)] s₂).any (fun s₃ =>
    (s₃.sendNext 1).any (fun t =>
    (t.step (Env.plain 1) (.tells 1 Trace.beginAgain)).any (fun u =>
      decide (u.offered = t.offered ++ [(1, .text (errorData "response_too_large"))]) &&
      (t.rooms.get Trace.room).all (fun r => r.upload.isNone) &&
      (u.rooms.get Trace.room).any (fun r => r.upload.isSome) &&
      decide (Protocol.parse (plainText Trace.beginAgain) = some Trace.beginAgain))))))) = true := by
    decide +kernel
  obtain ⟨before, hb, h⟩ := (Option.any_eq_true _ _).1 h
  obtain ⟨s₁, h₁, h⟩ := (Option.any_eq_true _ _).1 h
  obtain ⟨s₂, h₂, h⟩ := (Option.any_eq_true _ _).1 h
  obtain ⟨s₃, h₃, h⟩ := (Option.any_eq_true _ _).1 h
  obtain ⟨t, ht, h⟩ := (Option.any_eq_true _ _).1 h
  obtain ⟨u, hu, h⟩ := (Option.any_eq_true _ _).1 h
  simp only [Bool.and_eq_true, decide_eq_true_eq] at h
  obtain ⟨⟨⟨hoff, hnone⟩, hsome⟩, hparse⟩ := h
  have hrun : ∀ {l : List (Env × Command)} {s s' : Server}, exec (fun _ _ _ => true) l s = some s' →
      Run (fun _ _ _ => True) s s' := exec_run (fun _ _ _ _ => trivial)
  have hreach : Reached Trace.tight before.store false t :=
    .sent (Reached.run (.sent (Reached.boot.run (hrun h₁)) h₂) (hrun h₃)) ht
  refine ⟨before, t, u, hrun hb, ⟨fun k => if k = "MAX_BUFFERED_BYTES" then some "100" else none, [], by decide +kernel⟩,
    hreach, .received hparse rfl hu, ⟨_, _, hoff, List.mem_singleton.2 rfl, rfl, rfl⟩, fun hi => ?_⟩
  obtain ⟨r, hr, hup⟩ := (Option.any_eq_true _ _).1 hsome
  rw [hi.rooms] at hr
  have hno := (Option.all_eq_true _ _).1 hnone r hr
  rw [Option.isNone_iff_eq_none] at hno
  rw [hno] at hup
  cases hup

end Server
end Relay
