import GameRelay.Turns
import GameRelay.Trace
/-!
# Acknowledged — no acknowledged world is lost

A room's world is its revision and state.  `acknowledged` reads the last one the server vouched for off the history: a
persistent game's start, a commit's answer, or the file an earlier run left; an eviction withdraws it.  `Place.Holds`
says that the live room, else its file, holds that world.  Every turn keeps it but one: an entry refused at an empty
live room takes the room out of memory without a look at its file (`Server.Drops`).
-/
namespace Relay

open Function (update)

/-- A revision and the state under it. -/
abbrev Saved := Nat × Bytes

/-- The revision a file's header names. -/
def headerRevision (hd : Value) : Nat := ((hd.idx "revision").asU64).getD 0

def RoomFile.saved : RoomFile → Option Saved
  | .record hd st => some (headerRevision hd, st)
  | .corrupt _ => none

/-- The last acknowledged world after one more event of its room. -/
def acknowledge (a : Option Saved) : Event → Option Saved
  | .started _ => some (0, [])
  | .committed _ _ revision state => some (revision, state)
  | .evicted _ => none
  | _ => a

/-- The world of a room that was last acknowledged, when its file held `a` at the start. -/
def acknowledged (a : Option Saved) (past : List Event) : Option Saved := past.foldl acknowledge a

theorem acknowledged_append (a : Option Saved) (b c : List Event) :
    acknowledged a (b ++ c) = acknowledged (acknowledged a b) c := List.foldl_append ..

theorem acknowledged_evicted {a : Option Saved} {id : String} : ∀ {es : List Event}, es ≠ [] →
    (∀ e ∈ es, e = .evicted id) → acknowledged a es = none
  | [], h, _ => absurd rfl h
  | e :: es, _, h => by
    rw [h e (List.mem_cons_self ..)]
    by_cases hes : es = []
    · rw [hes]; rfl
    · exact acknowledged_evicted (a := none) hes (fun e' he' => h e' (List.mem_cons_of_mem _ he'))

/-- Who enters is not a matter of the world. -/
theorem acknowledged_entry (a : Option Saved) (loaded : Option Room) (r : Room) (p : String) :
    acknowledged a (Server.entryEvents loaded r p) = a := by
  unfold Server.entryEvents
  split <;> split <;> rfl

/-- A room that is not evicted stays acknowledged. -/
theorem acknowledged_isSome {id : String} : ∀ {es : List Event} {a : Option Saved}, a.isSome → .evicted id ∉ es →
    (∀ e ∈ es, e.room = id) → (acknowledged a es).isSome
  | [], _, h, _, _ => h
  | e :: es, a, h, hn, hr => by
    rw [List.mem_cons, not_or] at hn
    have rest : ∀ {b : Option Saved}, b.isSome → (acknowledged b es).isSome := fun hb =>
      acknowledged_isSome hb hn.2 (fun e' he' => hr e' (List.mem_cons_of_mem _ he'))
    refine rest ?_
    have hroom := hr e (List.mem_cons_self ..)
    cases e with
    | evicted x => exact absurd (by rw [show x = id from hroom]) hn.1
    | started x => rfl
    | committed x p n st => rfl
    | _ => exact h

/-- What a room's world and its being persistent depend on. -/
def Room.saved (r : Room) : Bool × Bool × Saved := (r.persistent, r.started, r.revision, r.state)

/-- **The live room, else its file, holds the acknowledged world.** -/
structure Place.Holds (a : Option Saved) (x : Place) : Prop where
  live : ∀ r, x.live = some r →
    acknowledged a x.past = if r.persistent = true then some (r.revision, r.state) else none
  fresh : ∀ r, x.live = some r → r.persistent = false → r.revision = 0 ∧ r.state = [] ∧ x.file.bind RoomFile.saved = none
  started : ∀ r, x.live = some r → r.persistent = true → r.started = true
  asleep : x.live = none → acknowledged a x.past = x.file.bind RoomFile.saved

theorem Place.Holds.of_file {a : Option Saved} {x : Place} (hn : x.live = none)
    (h : acknowledged a x.past = x.file.bind RoomFile.saved) : x.Holds a := by
  refine ⟨fun r hr => ?_, fun r hr => ?_, fun r hr => ?_, fun _ => h⟩ <;> rw [hn] at hr <;> cases hr

/-- Neither the room's world nor its file changes. -/
theorem Place.Holds.keep {a : Option Saved} {x y : Place} (h : x.Holds a) (hl : y.live.map Room.saved = x.live.map Room.saved)
    (hf : y.file = x.file) (hp : acknowledged a y.past = acknowledged a x.past) : y.Holds a := by
  have back : ∀ r, y.live = some r → ∃ r₀, x.live = some r₀ ∧ r.saved = r₀.saved := by
    intro r hr
    rw [hr] at hl
    obtain ⟨r₀, hr₀, he⟩ := Option.map_eq_some_iff.1 hl.symm
    exact ⟨r₀, hr₀, he.symm⟩
  have parts : ∀ {r r₀ : Room}, r.saved = r₀.saved → r.persistent = r₀.persistent ∧ r.started = r₀.started ∧
      r.revision = r₀.revision ∧ r.state = r₀.state := by
    intro r r₀ he
    simp only [Room.saved, Prod.mk.injEq] at he
    exact he
  refine ⟨fun r hr => ?_, fun r hr hp' => ?_, fun r hr hp' => ?_, fun hn => ?_⟩
  · obtain ⟨r₀, hr₀, he⟩ := back r hr
    obtain ⟨h₁, -, h₃, h₄⟩ := parts he
    rw [hp, h.live r₀ hr₀, h₁, h₃, h₄]
  · obtain ⟨r₀, hr₀, he⟩ := back r hr
    obtain ⟨h₁, -, h₃, h₄⟩ := parts he
    rw [h₃, h₄, hf]
    exact h.fresh r₀ hr₀ (h₁ ▸ hp')
  · obtain ⟨r₀, hr₀, he⟩ := back r hr
    obtain ⟨h₁, h₂, -, -⟩ := parts he
    rw [h₂]
    exact h.started r₀ hr₀ (h₁ ▸ hp')
  · rw [hn] at hl
    rw [hp, hf]
    exact h.asleep (Option.map_eq_none_iff.1 hl.symm)

theorem Spared.holds {a : Option Saved} {shared : Prop} {id : String} {x y : Place} (h : Spared shared id x y)
    (hs : ¬ shared) (hx : x.Holds a) : y.Holds a := by
  cases h with
  | same => exact hx
  | evicted hl hne hes hj =>
    refine .of_file hl ?_
    rw [acknowledged_append, acknowledged_evicted hne hes]
    rfl
  | overwritten hsh => exact absurd hsh hs

theorem header_saved (r : Room) : (RoomFile.record r.header r.state).saved = some (r.revision, r.state) := rfl

/-- A persistent room that sleeps leaves its world on file. -/
theorem Place.Holds.sleep {a : Option Saved} {x : Place} (h : x.Holds a) {r r' : Room} (hl : x.live = some r)
    (hp : r.persistent = true) (he : r'.saved = r.saved) : (x.asleep r').Holds a := by
  refine .of_file rfl ?_
  simp only [Room.saved, Prod.mk.injEq] at he
  show acknowledged a x.past = (RoomFile.record r'.header r'.state).saved
  rw [header_saved, h.live r hl, if_pos hp, he.2.2.1, he.2.2.2]

theorem dropSeat_saved (o : Option Room) (p : String) (d : Bool) : (dropSeat o p d).map Room.saved = o.map Room.saved := by
  unfold dropSeat
  split
  · rfl
  · rw [Option.map_map]; rfl

theorem departed_saved (r : Room) (p : String) (d : Bool) : (Server.departed r p d).saved = r.saved := by
  unfold Server.departed
  dsimp only
  repeat' split
  all_goals rfl

theorem remains_saved (r : Room) (p : String) (d : Bool) : (remains r p d).saved = r.saved := by
  unfold remains
  split
  · exact departed_saved r p d
  · exact departed_saved r p d

theorem handedOver_saved (r : Room) (p first : String) : (handedOver r p first).saved = r.saved := by
  unfold handedOver; split <;> rfl

theorem joined_saved (r : Room) (p : String) : (Server.joined r p).saved = r.saved := by
  unfold Server.joined; dsimp only; split <;> rfl

theorem timeoutUpload_saved (now : Nat) (r : Room) : (Server.timeoutUpload now r).saved = r.saved := by
  unfold Server.timeoutUpload; split <;> rfl

theorem Leaves.holds {a : Option Saved} {shared : Prop} {id p : String} {d : Bool} {x y : Place}
    (h : Leaves shared id p d x y) (hs : ¬ shared) (hx : x.Holds a) : y.Holds a := by
  -- the room once `p` gave up its seat there
  have dropped : Place.Holds a { x with live := dropSeat x.live p d } := hx.keep (dropSeat_saved ..) rfl rfl
  have set : ∀ {r r' : Room} {es : List Event}, dropSeat x.live p d = some r → r'.saved = r.saved →
      (∀ e ∈ es, ∃ q n, e = .hosted id q n) → Place.Holds a { x with live := some r', past := x.past ++ es } := by
    intro r r' es hr he hes
    refine dropped.keep (by show some r'.saved = _; rw [he, hr]; rfl) rfl ?_
    show acknowledged a (x.past ++ es) = acknowledged a x.past
    rw [acknowledged_append]
    clear hr he dropped
    induction es with
    | nil => rfl
    | cons e es ih =>
      obtain ⟨q, n, rfl⟩ := hes e (List.mem_cons_self ..)
      exact ih (fun e' he' => hes e' (List.mem_cons_of_mem _ he'))
  cases h with
  | elsewhere h => exact h.holds hs dropped
  | deleted hr he hp =>
    rename_i r
    refine .of_file rfl ?_
    show acknowledged a x.past = x.file.bind RoomFile.saved
    rw [dropped.live r hr, if_neg (by rw [hp]; intro h; cases h), (dropped.fresh r hr hp).2.2]
  | slept hr he hp h => exact h.holds hs (dropped.sleep hr hp (remains_saved ..))
  | kept hr he hp =>
    have h := set hr (remains_saved _ p d) (fun e (he : e ∈ []) => nomatch he)
    rw [List.append_nil] at h
    exact h
  | stayed hr hf =>
    refine set hr ((handedOver_saved ..).trans (remains_saved ..)) (fun e he => ?_)
    split at he
    · exact ⟨_, _, List.mem_singleton.1 he⟩
    · cases he

variable [Extern]

/-- **Every turn keeps a room's world**, unless it refuses an entry to a live room whose file does not hold it. -/
theorem Turn.holds {o : Option Saved} {w : World} {id : String} {a : Act} {x y : Place} (h : Turn w id a x y)
    (hs : ¬ w.Aliased id)
    (hg : ∀ p v q r e, a = .text p v → w.seats p = some q → q.room = none → v.idx "method" = .str "enterRoom" →
      (v.idx "data").idx "roomId" = .str id → x.live = some r → r.active.isEmpty = true → r.persistent = true →
      Server.entryError r p ((v.idx "data").idx "password") = some e →
      x.file.bind RoomFile.saved = some (r.revision, r.state))
    (hx : x.Holds o) : y.Holds o := by
  -- the live room changes, and no world is acknowledged
  have set : ∀ {r r' : Room} {es : List Event} {jobs : List Value}, x.live = some r → r'.saved = r.saved →
      (∀ b, acknowledged b es = b) → Place.Holds o { x with live := some r', jobs := jobs, past := x.past ++ es } := by
    intro r r' es jobs hl he hes
    refine hx.keep (by show some r'.saved = _; rw [he, hl]; rfl) rfl ?_
    show acknowledged o (x.past ++ es) = acknowledged o x.past
    rw [acknowledged_append, hes]
  cases h with
  | spared h => exact h.holds hs hx
  | expired => exact hx.keep (by show (x.live.map _).map _ = _; rw [Option.map_map]; rfl) rfl rfl
  | left ha h => exact h.holds hs hx
  | created ha hlow hl hfile hpast hroom hmax hfit =>
    rename_i p name v pw game r max now binary
    have hsaved : (Server.joined r p).saved = (false, false, 0, []) := by rw [joined_saved, hroom]; rfl
    simp only [Room.saved, Prod.mk.injEq] at hsaved
    obtain ⟨hp, -, hrev, hst⟩ := hsaved
    have hnone : acknowledged o x.past = none := by rw [hx.asleep hl, hfile]; rfl
    refine ⟨fun r' hr => ?_, fun r' hr _ => ?_, fun r' hr hp' => ?_, fun hn => nomatch hn⟩
    · cases hr
      rw [acknowledged_append, hnone, hp]
      rfl
    · cases hr
      exact ⟨hrev, hst, by rw [hfile]; rfl⟩
    · cases hr
      rw [hp] at hp'; cases hp'
  | woken ha hl hfile hid hlen hroom he =>
    rename_i p v pw hd st r now
    have hsaved : (Server.joined r p).saved = (true, true, headerRevision hd, st) := by rw [joined_saved, hroom]; rfl
    simp only [Room.saved, Prod.mk.injEq] at hsaved
    obtain ⟨hp, hstart, hrev, hst⟩ := hsaved
    refine ⟨fun r' hr => ?_, fun r' hr hp' => ?_, fun r' hr _ => ?_, fun hn => nomatch hn⟩
    · cases hr
      rw [acknowledged_append, acknowledged_entry, hx.asleep hl, hfile, if_pos hp, hrev, hst]
      rfl
    · cases hr
      rw [hp] at hp'; cases hp'
    · cases hr
      exact hstart
  | joined ha hl he => exact set hl (joined_saved ..) (fun b => acknowledged_entry b _ _ _)
  | refused ha hq hroom hm hid hpw hl hact hp he =>
    refine .of_file rfl ?_
    show acknowledged o x.past = x.file.bind RoomFile.saved
    rw [hx.live _ hl, if_pos hp, hg _ _ _ _ _ ha hq hroom hm hid hl hact hp (hpw ▸ he)]
  | edited ha hl hid hm hj he =>
    rename_i p v r r' es jobs jobs'
    cases he with
    | none => exact set hl rfl (fun _ => rfl)
    | settings ho hst hmax hsize hfit => exact set hl (by unfold joinClosed; split <;> rfl) (fun _ => rfl)
    | metadata ho hfit => exact set hl rfl (fun _ => rfl)
    | pushed ho => exact set hl rfl (fun _ => rfl)
    | began hp ho hrev hgen hreq hsize => exact set hl rfl (fun _ => rfl)
    | started ho hst =>
      -- a game that has not started is not persistent
      have hp : r.persistent = false := by
        cases hp : r.persistent with
        | false => rfl
        | true => rw [hx.started r hl hp] at hst; cases hst
      have hnone := hx.live r hl
      rw [if_neg (by rw [hp]; intro h; cases h)] at hnone
      obtain ⟨hrev, hstate, hfile⟩ := hx.fresh r hl hp
      refine ⟨fun r' hr => ?_, fun r' hr _ => ?_, fun r' hr _ => ?_, fun hn => nomatch hn⟩
      · cases hr
        rw [acknowledged_append, hnone]
        split
        · show some (0, []) = some (r.revision, r.state)
          rw [hrev, hstate]
        · rfl
      · cases hr
        exact ⟨hrev, hstate, hfile⟩
      · cases hr
        rfl
    | commit hp ho hu hc =>
      rename_i u now
      refine ⟨fun r' hr => ?_, fun r' hr hp' => ?_, fun r' hr _ => ?_, fun hn => nomatch hn⟩
      · cases hr
        rw [acknowledged_append, if_pos (show (committed r u _ now).persistent = true from hp)]
        rfl
      · cases hr
        rw [show (committed r u _ now).persistent = r.persistent from rfl, hp] at hp'; cases hp'
      · cases hr
        exact hx.started r hl hp
  | wrote ha hl hrid hm hp hb hu hid hst => exact set hl rfl (fun _ => rfl)
  | rejected ha hl hm hp hb hu hid hst =>
    exact hx.keep (by show some (Room.saved _) = _; rw [hl]; rfl) rfl rfl
  | timedOut ha =>
    refine hx.keep ?_ rfl rfl
    show (x.live.map _).map _ = _
    rw [Option.map_map]
    congr 1
    funext r
    exact timeoutUpload_saved _ r
  | slept ha hl hp hact h => exact h.holds hs (hx.sleep hl hp rfl)

omit [Extern] in
theorem Spared.past_grows {shared : Prop} {id : String} {x y : Place} (h : Spared shared id x y) :
    ∃ es, y.past = x.past ++ es := by
  cases h with
  | same => exact ⟨[], (List.append_nil _).symm⟩
  | evicted => exact ⟨_, rfl⟩
  | overwritten => exact ⟨_, rfl⟩

/-- A turn only adds to a room's history. -/
theorem Turn.past_grows {w : World} {id : String} {a : Act} {x y : Place} (h : Turn w id a x y) :
    ∃ es, y.past = x.past ++ es := by
  cases h with
  | spared h => exact h.past_grows
  | left ha h =>
    cases h with
    | elsewhere h => exact h.past_grows
    | slept hr he hp h => exact h.past_grows
    | stayed hr hf => exact ⟨_, rfl⟩
    | _ => exact ⟨[], (List.append_nil _).symm⟩
  | slept ha hl hp hact h => exact h.past_grows
  | created | woken | joined | edited | wrote => exact ⟨_, rfl⟩
  | _ => exact ⟨[], (List.append_nil _).symm⟩

namespace Server

/-- The world of a room last acknowledged in a run that started over this store. -/
def acknowledged (store : Store) (s : Server) (id : String) : Option Saved :=
  Relay.acknowledged ((store.rooms.get id).bind RoomFile.saved) (eventsOf id s.history)

end Server

/-- The room's file is a record of this world. -/
def Store.Saves (st : Store) (id : String) (a : Saved) : Prop :=
  ∃ hd, st.rooms.get (lowerText id) = some (.record hd a.2) ∧ hd.idx "roomId" = .str id ∧ headerRevision hd = a.1

namespace Server

/-- The live room or its file holds this world. -/
def Keeps (s : Server) (id : String) (a : Saved) : Prop :=
  (∃ r, s.rooms.get id = some r ∧ r.persistent = true ∧ (r.revision, r.state) = a) ∨ s.store.Saves id a

/-- `p`, who sits nowhere, is refused at a live persistent room that nobody is in. -/
structure Refuses (s : Server) (p id : String) (v : Value) (r : Room) : Prop where
  method : v.idx "method" = .str "enterRoom"
  room : (v.idx "data").idx "roomId" = .str id
  nowhere : ∃ q, s.players.get p = some q ∧ q.room = none
  live : s.rooms.get id = some r
  empty : r.active.isEmpty = true
  persistent : r.persistent = true
  error : ∃ e, entryError r p ((v.idx "data").idx "password") = some e

/-- **The step refuses an entry to this room**, which is live while its file does not hold its world. -/
def Drops (env : Env) (s : Server) (c : Command) (id : String) : Prop :=
  ∃ t cid txt p m v r, s.Executes env c t cid (.text txt) ∧ t.Valid txt v m ∧ t.Speaks cid p ∧ t.Refuses p id v r ∧
    ¬ t.store.Saves id (r.revision, r.state)

omit [Extern] in
/-- In a filed world, a file's world is saved under its room. -/
theorem saves_iff {s : Server} (hf : s.world.Filed) {id : String} (hid : lowerText id = id) {a : Saved} :
    s.store.Saves id a ↔ (s.world.place id).file.bind RoomFile.saved = some a := by
  constructor
  · rintro ⟨hd, hfile, -, hrev⟩
    show (s.store.rooms.get (lowerText id)).bind RoomFile.saved = some a
    obtain ⟨revision, state⟩ := a
    cases hrev
    rw [hfile]
    rfl
  · intro h
    obtain ⟨f, hfile, ha⟩ := Option.bind_eq_some_iff.1 h
    cases f with
    | corrupt n => cases ha
    | record hd st =>
      cases ha
      refine ⟨hd, hfile, ?_, rfl⟩
      have := (hf.files hfile).2 hd st rfl
      rw [hid] at this
      exact this

/-- What a run keeps of a room's world. -/
structure Safe (store : Store) (id : String) (w : World) : Prop where
  seated : w.Seated
  filed : w.Filed
  holds : lowerText id = id → (w.place id).Holds ((store.rooms.get id).bind RoomFile.saved)

/-- A refused entry meets a room whose file holds its world. -/
def Spares (id : String) (a : Act) (w : World) : Prop :=
  ∀ p v q r e, a = .text p v → w.seats p = some q → q.room = none → v.idx "method" = .str "enterRoom" →
    (v.idx "data").idx "roomId" = .str id → w.rooms id = some r → r.active.isEmpty = true → r.persistent = true →
    entryError r p ((v.idx "data").idx "password") = some e →
    (w.place id).file.bind RoomFile.saved = some (r.revision, r.state)

theorem Safe.move {store : Store} {id : String} {a : Act} {w w' : World} (h : Safe store id w)
    (hg : lowerText id = id → Spares id a w) (hk : w.Keyed) (hm : Move a w w') : Safe store id w' :=
  ⟨hm.seated h.seated, hm.filed hk h.filed, fun hid =>
    (hm.turn hk h.seated id).holds (h.filed.not_aliased hid) (hg hid) (h.holds hid)⟩

theorem spares_of_not_drops {env : Env} {s : Server} {c : Command} {id : String} {a : Act} {w : World}
    (hg : ¬ s.Drops env c id) (hd : s.Does env c a w) (hf : w.Filed) (hid : lowerText id = id) : Spares id a w := by
  intro p v q r e ha hq hroom hmeth hrid hl hact hp he
  subst ha
  cases hd with
  | text hex hv hsp hread =>
    rename_i t cid txt m
    obtain ⟨pl, hpl, rfl⟩ : ∃ pl, t.players.get p = some pl ∧ pl.seat = q := Option.map_eq_some_iff.1 hq
    by_contra hno
    refine hg ⟨t, cid, txt, p, m, v, r, hex, hv, hsp, ⟨hmeth, hrid, ⟨pl, hpl, hroom⟩, hl, hact, hp, e, he⟩, ?_⟩
    rw [saves_iff hf hid]
    exact hno

omit [Extern] in
theorem boot_safe (config : Config) {store : Store} (push : Bool) (hst : store.Filed) (id : String) :
    Safe store id (boot config store push).world := by
  refine ⟨boot_seated config store push, boot_filed config push hst, fun hid => .of_file rfl ?_⟩
  show (store.rooms.get id).bind RoomFile.saved = (store.rooms.get (lowerText id)).bind RoomFile.saved
  rw [hid]

theorem Safe.run {config : Config} {store : Store} {push : Bool} {id : String} {s : Server} (hst : store.Filed)
    (h : Run (fun env s c => ¬ s.Drops env c id) (boot config store push) s) : Safe store id s.world := by
  exact Run.invariant (I := Safe store id)
    (fun env s c a w w' hg hd hb hm hw => hw.move (spares_of_not_drops hg hd hw.filed) hb.keyed hm) h
    (boot_base config store push) (boot_safe config push hst id)

omit [Extern] in
/-- A room that was acknowledged has a lower-case identifier. -/
theorem lower_of_acknowledged {store : Store} (hst : store.Filed) {s : Server} (hf : s.world.Filed) {id : String}
    {a : Saved} (h : s.acknowledged store id = some a) : lowerText id = id := by
  by_contra hid
  have hnil : eventsOf id s.history = [] := eventsOf_eq_nil (fun e he hr => hid (hr ▸ hf.past he))
  unfold acknowledged at h
  rw [hnil] at h
  obtain ⟨f, hfile, -⟩ := Option.bind_eq_some_iff.1 h
  exact hid (hst hfile).1

omit [Extern] in
theorem Safe.keeps {store : Store} (hst : store.Filed) {s : Server} {id : String} (h : Safe store id s.world) {a : Saved}
    (ha : s.acknowledged store id = some a) : s.Keeps id a := by
  have hid := lower_of_acknowledged hst h.filed ha
  have hh := h.holds hid
  cases hl : s.rooms.get id with
  | none => exact .inr ((saves_iff h.filed hid).2 ((hh.asleep hl).symm.trans ha))
  | some r =>
    have hack := (hh.live r hl).symm.trans ha
    cases hp : r.persistent with
    | false => rw [hp] at hack; cases hack
    | true =>
      rw [hp, if_pos rfl] at hack
      exact .inl ⟨r, hl, hp, Option.some.inj hack⟩

/-- What a step adds to a room's history. -/
theorem step_past {env : Env} {s t : Server} {c : Command} {config : Config} (hb : s.world.Base config)
    (hseats : s.world.Seated) (h : s.step env c = some t) (id : String) :
    ∃ es, eventsOf id t.history = eventsOf id s.history ++ es :=
  (step_chain hb h).relates (I := fun w => w.Keyed ∧ w.Seated)
    (R := fun w w' => ∃ es, (w'.place id).past = (w.place id).past ++ es)
    (fun w => ⟨[], (List.append_nil _).symm⟩)
    (fun w w' w'' ⟨e, he⟩ ⟨e', he'⟩ => ⟨e ++ e', by rw [he', he, List.append_assoc]⟩)
    (fun a w w' _ hm hw => ⟨hm.keyed hw.1, hm.seated hw.2⟩)
    (fun a w w' _ hm hw => (hm.turn hw.1 hw.2 id).past_grows) ⟨hb.keyed, hseats⟩

/-- **No acknowledged world is lost.**  Unless an entry is refused at an empty live room that its file does not hold, the
live room or its file holds the last acknowledged world in every reachable state; and a step that takes a persistent
room out of memory leaves its last acknowledged world on file, or evicts it. -/
theorem acknowledged_world_kept {config : Config} {store : Store} {push : Bool} {s : Server} (hst : store.Filed)
    (h : Run (fun env s c => ∀ id, ¬ s.Drops env c id) (boot config store push) s) :
    (∀ id a, s.acknowledged store id = some a → s.Keeps id a) ∧
    ∀ env c t, (∀ id, ¬ s.Drops env c id) → s.step env c = some t → ∀ id r, s.rooms.get id = some r →
      r.persistent = true → t.rooms.get id = none → ∃ es, eventsOf id t.history = eventsOf id s.history ++ es ∧
        (.evicted id ∈ es ∨ ∃ a, Relay.acknowledged (some (r.revision, r.state)) es = some a ∧ t.store.Saves id a) := by
  have safe : ∀ id {u : Server}, Run (fun env s c => ∀ id, ¬ s.Drops env c id) (boot config store push) u →
      Safe store id u.world := fun id u hu => Safe.run hst (hu.mono (fun env s c hg => hg id))
  refine ⟨fun id a ha => (safe id h).keeps hst ha, fun env c t hg hstep id r hr hp hn => ?_⟩
  have hs := safe id h
  have ht := safe id (h.tail ⟨env, c, hg, hstep⟩)
  have hid : lowerText id = id := hs.filed.live hr
  -- the step only adds to the room's history
  obtain ⟨es, hes⟩ := step_past (Run.base h (boot_base config store push)) hs.seated hstep id
  refine ⟨es, hes, ?_⟩
  by_cases he : .evicted id ∈ es
  · exact .inl he
  · have hack : s.acknowledged store id = some (r.revision, r.state) := by
      have := (hs.holds hid).live r hr
      rw [if_pos hp] at this
      exact this
    have hack' : t.acknowledged store id = Relay.acknowledged (some (r.revision, r.state)) es := by
      unfold acknowledged at hack ⊢
      rw [hes, acknowledged_append, hack]
    have hroom : ∀ e ∈ es, e.room = id := by
      intro e hm
      have : e ∈ eventsOf id t.history := by rw [hes]; exact List.mem_append_right _ hm
      exact of_decide_eq_true (List.mem_filter.1 this).2
    obtain ⟨a, ha⟩ := Option.isSome_iff_exists.1 (acknowledged_isSome (a := some (r.revision, r.state)) rfl he hroom)
    refine .inr ⟨a, ha, (saves_iff ht.filed hid).2 ?_⟩
    rw [← (ht.holds hid).asleep hn]
    exact hack'.trans ha

/-- What a run leaves is again a store of files under their rooms' identifiers. -/
theorem Run.store_filed {G : Env → Server → Command → Prop} {config : Config} {store : Store} {push : Bool} {s : Server}
    (hst : store.Filed) (h : Run G (boot config store push) s) : s.store.Filed := by
  have hw : s.world.Filed := Run.invariant (I := World.Filed) (fun env s c a w w' _ _ hb hm hw => hm.filed hb.keyed hw) h
    (boot_base config store push) (boot_filed config push hst)
  exact fun _ _ hk => hw.files hk

omit [Extern] in
theorem empty_filed : Store.empty.Filed := fun h => nomatch h

/-- The command enters no room. -/
def entersNoRoom : Command → Bool
  | .receive _ (.text txt) => (Protocol.parse txt).all (fun v => decide (v.idx "method" ≠ .str "enterRoom"))
  | .sweep => false
  | _ => true

theorem not_enters {env : Env} {s t : Server} {c : Command} (h : entersNoRoom c = true) {cid : Nat} {txt m : String}
    {v : Value} (hex : s.Executes env c t cid (.text txt)) (hv : t.Valid txt v m) : v.idx "method" ≠ .str "enterRoom" := by
  generalize hf : Frame.text txt = frame at hex
  cases hex with
  | text ha hp ht hv' hs hm hnow =>
    cases hf
    simp only [entersNoRoom, hv.parses] at h
    exact of_decide_eq_true h
  | binary => cases hf
  | due hq ht hd hc hrun => cases h

theorem not_drops {env : Env} {s : Server} {c : Command} (h : entersNoRoom c = true) (id : String) :
    ¬ s.Drops env c id := by
  rintro ⟨t, cid, txt, p, m, v, r, hex, hv, -, href, -⟩
  exact not_enters h hex hv href.method

omit [Extern] in
theorem acknowledged_world_kept_saved :
    letI := Extern.reading [Trace.signUp, Trace.createRoom, Trace.startGame, Trace.beginSession 1, Trace.commitSession]
    ∃ s, Run (fun env s c => ∀ id, ¬ s.Drops env c id) (boot .default .empty false) s ∧
      s.acknowledged .empty Trace.room = some (1, [7]) ∧ s.Keeps Trace.room (1, [7]) := by
  let _ := Extern.reading [Trace.signUp, Trace.createRoom, Trace.startGame, Trace.beginSession 1, Trace.commitSession]
  have h : (exec (fun _ _ c => entersNoRoom c) (Trace.saved ++ [(.plain 2, .disconnect 1)])
      (boot .default .empty false)).any (fun s => decide (s.acknowledged .empty Trace.room = some (1, [7]))) = true := by
    decide +kernel
  obtain ⟨s, hs, ha⟩ := (Option.any_eq_true _ _).1 h
  have hrun := exec_run (G := fun env s c => ∀ id, ¬ s.Drops env c id) (fun _ _ _ h => not_drops h) hs
  exact ⟨s, hrun, of_decide_eq_true ha, (acknowledged_world_kept empty_filed hrun).1 _ _ (of_decide_eq_true ha)⟩

omit [Extern] in
/-- **A stranger's refused entry loses the world** that an empty room holds because its file could not be written. -/
theorem refused_entry_loses_world :
    letI := Extern.reading [Trace.signUp, Trace.createRoom, Trace.startGame, Trace.beginSession 1, Trace.commitSession,
      Trace.enterRoom]
    ∃ s, Run (fun _ _ _ => True) (boot .default .empty false) s ∧ Store.empty.Filed ∧
      ∃ a, s.acknowledged .empty Trace.room = some a ∧ ¬ s.Keeps Trace.room a := by
  let _ := Extern.reading [Trace.signUp, Trace.createRoom, Trace.startGame, Trace.beginSession 1, Trace.commitSession,
    Trace.enterRoom]
  have h : (exec (fun _ _ _ => true) (Trace.saved ++ [(.failing 2, .disconnect 1), (.plain 3, .connected 2),
      (.plain 3, .tells 2 Trace.signUp), (.plain 3, .tells 2 Trace.enterRoom)]) (boot .default .empty false)).any (fun s =>
        decide (s.acknowledged .empty Trace.room = some (1, [7])) && (s.rooms.get Trace.room).isNone &&
          (s.store.rooms.get (lowerText Trace.room)).isNone) = true := by
    decide +kernel
  obtain ⟨s, hs, hbad⟩ := (Option.any_eq_true _ _).1 h
  simp only [Bool.and_eq_true, decide_eq_true_eq, Option.isNone_iff_eq_none] at hbad
  refine ⟨s, exec_run (fun _ _ _ _ => trivial) hs, empty_filed, (1, [7]), hbad.1.1, ?_⟩
  rintro (⟨r, hr, -⟩ | ⟨hd, hf, -⟩)
  · rw [hbad.1.2] at hr; cases hr
  · rw [hbad.2] at hf; cases hf

end Server
end Relay
