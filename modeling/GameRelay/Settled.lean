import GameRelay.Reserved
import GameRelay.Restored
import GameRelay.Succession
/-!
# Settled — the terms of a started game

`Terms` is what a game is played under.  Before it starts the owner changes them; then no message, departure, expiry or
save does (`Turn.settled`), and the file of a sleeping game holds the terms of the game (`RoomFile.terms_header`).  A room
that is gone does not come back, so **one identifier has one game, under the terms it started with**
(`started_games_are_settled`).
-/
namespace Relay

open Function (update)

structure Terms where
  started : Bool
  name : String
  max : Nat
  password : Value
  game : Value
  start : Value
  binary : Bool
  fixed : Bool
  migration : Bool
  persistent : Bool
  players : IndexSet String

def Room.terms (r : Room) : Terms :=
  ⟨r.started, r.name, r.max, r.password, r.game, r.start, r.binary, r.fixed, r.migration, r.persistent, r.players⟩

/-- The terms of the game a file holds for this room. -/
def RoomFile.terms (id : String) : RoomFile → Option Terms
  | .record hd _ => if hd.idx "roomId" = .str id then some (Store.roomOf hd id 0).terms else none
  | .corrupt _ => none

/-- The terms of a started game, live or asleep. -/
def Place.terms (id : String) (x : Place) : Option Terms :=
  match x.live with
  | some r => if r.started then some r.terms else none
  | none => x.file.bind (RoomFile.terms id)

/-- There was a room here, and there is none. -/
structure Place.Lost (id : String) (x : Place) : Prop where
  live : x.live = none
  past : x.past ≠ []
  file : x.file.bind (RoomFile.terms id) = none

/-! Who comes and goes does not change the terms. -/

theorem joined_terms (r : Room) (p : String) : (Server.joined r p).terms = r.terms := by
  unfold Server.joined; dsimp only; split <;> rfl

theorem remains_terms (r : Room) (p : String) (d : Bool) : (remains r p d).terms = r.terms := by
  have hd : (Server.departed r p d).terms = r.terms := by
    unfold Server.departed
    dsimp only
    repeat' split
    all_goals rfl
  unfold remains
  split
  · exact hd
  · exact hd

theorem handedOver_terms (r : Room) (p first : String) : (handedOver r p first).terms = r.terms := by
  unfold handedOver; split <;> rfl

theorem timeoutUpload_terms (now : Nat) (r : Room) : (Server.timeoutUpload now r).terms = r.terms := by
  unfold Server.timeoutUpload; split <;> rfl

theorem dropSeat_keeps {r₀ r : Room} {p : String} {d : Bool} (h : dropSeat (some r₀) p d = some r) :
    r.terms = r₀.terms ∧ r.active = r₀.active ∧ r.id = r₀.id := by
  unfold dropSeat at h
  split at h
  · exact Option.some.inj h ▸ ⟨rfl, rfl, rfl⟩
  · exact Option.some.inj h ▸ ⟨rfl, rfl, rfl⟩

/-- **The file of a persistent game holds its terms.** -/
theorem RoomFile.terms_header {r : Room} (hg : r.started = true ∧ r.fixed = true ∧ r.migration = true)
    (hp : r.persistent = true) (st : Bytes) : (RoomFile.record r.header st).terms r.id = some r.terms := by
  have hr : (Store.roomOf r.header r.id 0).terms = r.asleep.terms := by
    have h := congrArg Room.terms (Store.roomOf_header r 0)
    exact h
  have ha : r.asleep.terms = r.terms := by
    unfold Room.asleep Room.terms
    dsimp only
    rw [hg.1, hg.2.1, hg.2.2, hp]
  show (if r.header.idx "roomId" = .str r.id then some (Store.roomOf r.header r.id 0).terms else none) = some r.terms
  rw [if_pos (show r.header.idx "roomId" = .str r.id from rfl), hr, ha]

section Started

variable [Extern]

/-- **No message changes the terms of a started game.** -/
theorem Edit.terms_eq {c : Config} {jobs jobs' : String → List Value} {p : String} {d : Value} {r r' : Room}
    {es : List Event} (h : Edit c jobs p d r r' es jobs') (hs : r.started = true) : r'.terms = r.terms := by
  cases h with
  | settings ho hno => rw [hs] at hno; cases hno
  | started ho hno => rw [hs] at hno; cases hno
  | _ => rfl

/-- What is known of a room's place: a live room has been seen, a file agrees with it, and a fixed game is played by its
roster. -/
structure Place.Settled (id : String) (x : Place) : Prop where
  seen : ∀ r, x.live = some r → x.past ≠ []
  file : ∀ r g, x.live = some r → x.file.bind (RoomFile.terms id) = some g → g = r.terms
  roster : ∀ r, x.live = some r → r.fixed = true → r.started = true ∧ ∀ q ∈ r.active, q ∈ r.players

namespace Place.Settled

variable {id : String} {x y : Place}

omit [Extern] in
/-- No room is live. -/
theorem of_none (hl : y.live = none) : y.Settled id := by
  refine ⟨fun r hr => ?_, fun r g hr => ?_, fun r hr => ?_⟩
  all_goals
    rw [hl] at hr
    cases hr

omit [Extern] in
/-- The same game is live, over the same file. -/
theorem live {r r' : Room} (h : x.Settled id) (hl : x.live = some r) (hl' : y.live = some r') (ht : r'.terms = r.terms)
    (hf : y.file = x.file ∨ y.file = none) (hp : x.past ≠ [] → y.past ≠ [])
    (ha : r'.fixed = true → ∀ q ∈ r'.active, q ∈ r.players) : y.Settled id := by
  have hstarted : r'.started = r.started := congrArg Terms.started ht
  have hfixed : r'.fixed = r.fixed := congrArg Terms.fixed ht
  have hplayers : r'.players = r.players := congrArg Terms.players ht
  refine ⟨fun _ _ => hp (h.seen r hl), fun r₁ g hr₁ hg => ?_, fun r₁ hr₁ hf₁ => ?_⟩
  · rw [hl'] at hr₁
    obtain rfl := Option.some.inj hr₁
    rcases hf with hf | hf
    · rw [hf] at hg
      rw [ht]
      exact h.file r g hl hg
    · rw [hf] at hg
      cases hg
  · rw [hl'] at hr₁
    obtain rfl := Option.some.inj hr₁
    rw [hstarted, hplayers]
    exact ⟨(h.roster r hl (hfixed ▸ hf₁)).1, ha hf₁⟩

end Place.Settled

omit [Extern] in
/-- Who enters a fixed game is on its roster. -/
theorem entry_rostered {r : Room} {p : String} {pw : Value} (he : Server.entryError r p pw = none)
    (hr : r.fixed = true → r.started = true ∧ ∀ q ∈ r.active, q ∈ r.players) (hf : r.fixed = true) :
    ∀ q ∈ (Server.joined r p).active, q ∈ r.players := by
  obtain ⟨hs, hin⟩ := hr hf
  intro q hq
  rw [joined_items] at hq
  rcases IndexSet.mem_insert.1 hq with rfl | hq
  · unfold Server.entryError at he
    rw [hs] at he
    by_contra hn
    have hrej : r.rejoin q = false := by
      unfold Room.rejoin
      rw [if_pos hf]
      exact eq_false_of_ne_true (fun h => hn (IndexSet.contains_iff.1 h))
    rw [hrej] at he
    cases he
  · exact hin q hq

omit [Extern] in
theorem RoomFile.terms_started {id : String} {x : Place} {g : Terms} (h : x.file.bind (RoomFile.terms id) = some g) :
    g.started = true := by
  obtain ⟨f, -, hf⟩ := Option.bind_eq_some_iff.1 h
  cases f with
  | corrupt n => cases hf
  | record hd st =>
    change (if hd.idx "roomId" = .str id then some (Store.roomOf hd id 0).terms else none) = some g at hf
    split at hf
    · exact Option.some.inj hf ▸ rfl
    · cases hf

namespace Place.Settled

variable {id : String} {x y : Place}

omit [Extern] in
/-- A game that has not started has no file. -/
theorem unsaved {r : Room} (h : x.Settled id) (hl : x.live = some r) (hs : r.started = false) :
    x.file.bind (RoomFile.terms id) = none := by
  cases hf : x.file.bind (RoomFile.terms id) with
  | none => rfl
  | some g =>
    have hg := RoomFile.terms_started hf
    rw [h.file r g hl hf] at hg
    exact absurd (hs.symm.trans hg) Bool.false_ne_true

omit [Extern] in
/-- A game is live that has no file. -/
theorem fresh {r : Room} (hl : y.live = some r) (hp : y.past ≠ []) (hf : y.file.bind (RoomFile.terms id) = none)
    (hr : r.fixed = true → r.started = true ∧ ∀ q ∈ r.active, q ∈ r.players) : y.Settled id := by
  refine ⟨fun _ _ => hp, fun r₁ g _ hg => ?_, fun r₁ hr₁ => ?_⟩
  · rw [hf] at hg
    cases hg
  · rw [hl] at hr₁
    exact Option.some.inj hr₁ ▸ hr

omit [Extern] in
theorem spared {shared : Prop} (hx : x.Settled id) (h : Spared shared id x y) (hn : ¬ shared) : y.Settled id := by
  cases h with
  | same => exact hx
  | evicted hl => exact of_none hl
  | overwritten hs => exact absurd hs hn

omit [Extern] in
theorem dropped (hx : x.Settled id) (p : String) (d : Bool) : Place.Settled id { x with live := dropSeat x.live p d } := by
  cases hl : x.live with
  | none =>
    refine of_none ?_
    unfold dropSeat
    split <;> rfl
  | some r₀ =>
    cases hr : dropSeat (some r₀) p d with
    | none => exact of_none rfl
    | some r =>
      obtain ⟨ht, ha, -⟩ := dropSeat_keeps hr
      exact hx.live hl rfl ht (.inl rfl) (fun h => h) (fun hf => by
        rw [ha]
        exact (hx.roster r₀ hl ((congrArg Terms.fixed ht).symm.trans hf)).2)

/-- What an edit leaves. -/
theorem edited {c : Config} {jobs jobs' : String → List Value} {p : String} {d : Value} {r r' : Room} {es : List Event}
    (hx : x.Settled id) (hl : x.live = some r) (he : Edit c jobs p d r r' es jobs') (hy : y.live = some r')
    (hf : y.file = x.file) (hp : x.past ≠ [] → y.past ≠ []) : y.Settled id := by
  cases hs : r.started with
  | true =>
    have ht := he.terms_eq hs
    exact hx.live hl hy ht (.inl hf) hp (fun hfix => by
      rw [he.active_eq]
      exact (hx.roster r hl ((congrArg Terms.fixed ht).symm.trans hfix)).2)
  | false =>
    refine fresh hy (hp (hx.seen r hl)) (by rw [hf]; exact hx.unsaved hl hs) (fun hfix => ?_)
    have hno : r.fixed = true → False := fun h => by
      rw [(hx.roster r hl h).1] at hs
      cases hs
    cases he with
    | settings =>
      refine absurd ?_ hno
      rw [← hfix]
      unfold joinClosed
      split <;> rfl
    | started ho hst =>
      have hd : decide (d.idx "fixedRoster" = .bool true) = true := hfix
      refine ⟨rfl, fun q hq => ?_⟩
      show q ∈ (if decide (d.idx "fixedRoster" = .bool true) = true then r.active else r.players)
      rw [if_pos hd]
      exact hq
    | none => exact absurd hfix hno
    | metadata => exact absurd hfix hno
    | pushed => exact absurd hfix hno
    | began => exact absurd hfix hno
    | commit => exact absurd hfix hno

end Place.Settled

/-- **Every turn leaves a room's place settled.** -/
theorem Turn.settled {w : World} {id : String} {a : Act} {x y : Place} (h : Turn w id a x y) (hn : ¬ w.Aliased id)
    (hx : x.Settled id) : y.Settled id := by
  have hp : x.past ≠ [] → y.past ≠ [] := h.past_ne
  -- some of the members remain
  have remaining : ∀ {r₀ r : Room} {p : String} {d : Bool}, x.live = some r₀ → dropSeat (some r₀) p d = some r →
      ∀ {r' : Room}, r'.terms = (remains r p d).terms → r'.active = (remains r p d).active → y.live = some r' →
      y.file = x.file → y.Settled id := by
    intro r₀ r p d hl hr r' ht ha hy hf
    obtain ⟨ht₀, ha₀, -⟩ := dropSeat_keeps hr
    have ht' : r'.terms = r₀.terms := ht.trans ((remains_terms r p d).trans ht₀)
    refine hx.live hl hy ht' (.inl hf) hp (fun hfix q hq => ?_)
    rw [ha] at hq
    have hq' : q ∈ r.active := (remains_sublist r p d).subset hq
    rw [ha₀] at hq'
    exact (hx.roster r₀ hl ((congrArg Terms.fixed ht').symm.trans hfix)).2 q hq'
  have live : ∀ {p : String} {d : Bool} {r : Room}, dropSeat x.live p d = some r →
      ∃ r₀, x.live = some r₀ ∧ dropSeat (some r₀) p d = some r := by
    intro p d r hr
    cases hl : x.live with
    | none => rw [hl] at hr; unfold dropSeat at hr; split at hr <;> cases hr
    | some r₀ => exact ⟨r₀, rfl, hl ▸ hr⟩
  cases h with
  | spared h => exact hx.spared h hn
  | expired =>
    cases hl : x.live with
    | none => exact .of_none rfl
    | some r => exact hx.live hl rfl rfl (.inl rfl) (fun h => h) (fun hf => (hx.roster r hl hf).2)
  | left ha h =>
    cases h with
    | elsewhere h => exact (hx.dropped _ _).spared h hn
    | deleted => exact .of_none rfl
    | slept hr he hp h => exact (Place.Settled.of_none (by exact rfl)).spared h hn
    | kept hr he hp =>
      obtain ⟨r₀, hl, hr'⟩ := live hr
      exact remaining hl hr' rfl rfl rfl rfl
    | stayed hr hf =>
      obtain ⟨r₀, hl, hr'⟩ := live hr
      exact remaining hl hr' (handedOver_terms _ _ _) (handedOver_keeps _ _ _).1 rfl rfl
  | created ha hlow hl hfile hpast hroom hmax hfit =>
    rename_i p name v pw game r max now binary
    refine .fresh rfl (List.append_ne_nil_of_right_ne_nil _ (List.cons_ne_nil _ _)) (by rw [hfile]; rfl) (fun hf => ?_)
    have hfix := (congrArg Terms.fixed (joined_terms r p)).symm.trans hf
    rw [hroom] at hfix
    cases hfix
  | woken ha hl hfile hid hlen hroom he =>
    rename_i p v pw hd st r now
    have ht : (Server.joined r p).terms = (Store.roomOf hd id 0).terms := by
      rw [joined_terms, hroom]
      rfl
    refine ⟨fun _ _ => List.append_ne_nil_of_right_ne_nil _ (List.cons_ne_nil _ _), fun r₁ g hr₁ hg => ?_, fun r₁ hr₁ hf => ?_⟩
    · cases hr₁
      change x.file.bind (RoomFile.terms id) = some g at hg
      rw [hfile] at hg
      change (if hd.idx "roomId" = .str id then some (Store.roomOf hd id 0).terms else none) = some g at hg
      rw [if_pos hid] at hg
      exact (Option.some.inj hg).symm.trans ht.symm
    · cases hr₁
      have hroster := entry_rostered he (fun _ => ⟨by rw [hroom]; rfl, fun q hq => ?_⟩) (by rw [hroom]; rfl)
      · rw [show (Server.joined r p).players = r.players from congrArg Terms.players (joined_terms r p)]
        exact ⟨(congrArg Terms.started ht).trans rfl, hroster⟩
      · rw [hroom] at hq
        exact absurd hq List.not_mem_nil
  | joined ha hl he =>
    rename_i p v pw r
    exact hx.live hl rfl (joined_terms r p) (.inl rfl) hp (fun hf => entry_rostered he (hx.roster r hl)
      ((congrArg Terms.fixed (joined_terms r p)).symm.trans hf))
  | refused => exact .of_none rfl
  | edited ha hl hid hm hj he => exact hx.edited hl he rfl rfl hp
  | wrote ha hl => exact hx.live hl rfl rfl (.inl rfl) hp (fun hf => (hx.roster _ hl hf).2)
  | rejected ha hl => exact hx.live hl rfl rfl (.inl rfl) hp (fun hf => (hx.roster _ hl hf).2)
  | timedOut ha =>
    cases hl : x.live with
    | none => exact .of_none rfl
    | some r =>
      refine hx.live hl rfl (timeoutUpload_terms _ r) (.inl rfl) (fun h => h) (fun hf => ?_)
      rw [timeoutUpload_active]
      exact (hx.roster r hl ((congrArg Terms.fixed (timeoutUpload_terms _ r)).symm.trans hf)).2
  | slept ha hl hp hact h => exact (Place.Settled.of_none (by exact rfl)).spared h hn

/-- **No change of a live room touches the terms of a started game.** -/
theorem Change.terms_eq {w : World} {id : String} {a : Act} {r r' : Room} {o o' : Option Room} (h : Change w id a o o')
    (ho : o = some r) (ho' : o' = some r') (hs : r.started = true) : r'.terms = r.terms := by
  cases h with
  | same => cases ho; cases ho'; rfl
  | gone => cases ho'
  | unseated p => cases ho; cases ho'; rfl
  | timedOut ha => cases ho; cases ho'; exact timeoutUpload_terms _ _
  | kept ha hr => cases ho; cases ho'; exact (remains_terms _ _ _).trans (dropSeat_keeps hr).1
  | stayed ha hr =>
    cases ho; cases ho'
    exact (handedOver_terms _ _ _).trans ((remains_terms _ _ _).trans (dropSeat_keeps hr).1)
  | created => cases ho
  | woken => cases ho
  | joined => cases ho; cases ho'; exact joined_terms _ _
  | edited ha hm he => cases ho; cases ho'; exact he.terms_eq hs
  | wrote => cases ho; cases ho'; rfl
  | rejected => cases ho; cases ho'; rfl

/-- **What a turn does to a room's file**: it stays, it is evicted, or the live room is saved. -/
theorem Turn.saving {w : World} {id : String} {a : Act} {x y : Place} (h : Turn w id a x y) (hn : ¬ w.Aliased id) :
    y.file = x.file ∨ (y.file = none ∧ y.past ≠ []) ∨ ∃ (r r' : Room) (st : Bytes), x.live = some r ∧ r'.terms = r.terms ∧ r'.id = r.id ∧
      r'.persistent = true ∧ y.file = some (.record r'.header st) := by
  have spared : ∀ {x' : Place}, Spared (w.Aliased id) id x' y → y.file = x'.file ∨ (y.file = none ∧ y.past ≠ []) := by
    intro x' h
    cases h with
    | same => exact .inl rfl
    | evicted hl hne => exact .inr ⟨rfl, List.append_ne_nil_of_right_ne_nil _ hne⟩
    | overwritten hs => exact absurd hs hn
  have saved : ∀ {r r' : Room}, x.live = some r → r'.terms = r.terms → r'.id = r.id → r'.persistent = true →
      Spared (w.Aliased id) id (x.asleep r') y → y.file = x.file ∨ (y.file = none ∧ y.past ≠ []) ∨
        ∃ (r r' : Room) (st : Bytes), x.live = some r ∧ r'.terms = r.terms ∧ r'.id = r.id ∧ r'.persistent = true ∧
        y.file = some (.record r'.header st) := by
    intro r r' hl ht hid hp h
    rcases spared h with hf | hf
    · exact .inr (.inr ⟨r, r', r'.state, hl, ht, hid, hp, hf⟩)
    · exact .inr (.inl hf)
  cases h with
  | spared h => exact (spared h).imp_right .inl
  | left ha h =>
    rename_i p d
    cases h with
    | elsewhere h => exact (spared h).imp_right .inl
    | slept hr he hp h =>
      rename_i r
      cases hl : x.live with
      | none => rw [hl] at hr; unfold dropSeat at hr; split at hr <;> cases hr
      | some r₀ =>
        rw [hl] at hr
        obtain ⟨ht, -, hid⟩ := dropSeat_keeps hr
        have hkeeps := remains_keeps r p d
        rw [hl] at saved
        exact saved rfl ((remains_terms _ p d).trans ht) (hkeeps.1.trans hid) (hkeeps.2.2.2.trans hp) h
    | _ => exact .inl rfl
  | slept ha hl hp hact h => exact saved hl rfl rfl hp h
  | _ => exact .inl rfl

/-- **Where a live room comes from**: it is new under an identifier without a past, or it was asleep. -/
theorem Turn.awakes {w : World} {id : String} {a : Act} {x y : Place} (h : Turn w id a x y) (hn : ¬ w.Aliased id)
    (hl : x.live = none) : y.live = none ∨ (x.past = [] ∧ x.file = none) ∨
      ∃ r, y.live = some r ∧ x.file.bind (RoomFile.terms id) = some r.terms := by
  have nobody : ∀ {r : Room} {P : Prop}, x.live = some r → P := by
    intro r P hr
    rw [hl] at hr
    cases hr
  have nothing : ∀ {p : String} {d : Bool}, dropSeat x.live p d = none := by
    intro p d
    rw [hl]
    unfold dropSeat
    split <;> rfl
  cases h with
  | spared h => exact .inl ((h.unshared hn).2.trans hl)
  | expired => exact .inl (congrArg (Option.map _) hl)
  | left ha h =>
    cases h with
    | elsewhere h => exact .inl ((h.unshared hn).2.trans nothing)
    | deleted hr => rw [nothing] at hr; cases hr
    | slept hr => rw [nothing] at hr; cases hr
    | kept hr => rw [nothing] at hr; cases hr
    | stayed hr => rw [nothing] at hr; cases hr
  | created ha hlow hl' hfile hpast => exact .inr (.inl ⟨hpast, hfile⟩)
  | woken ha hl' hfile hid hlen hroom =>
    refine .inr (.inr ⟨_, rfl, ?_⟩)
    rw [hfile, joined_terms, hroom]
    show (if _ then some (Store.roomOf _ id 0).terms else none) = _
    rw [if_pos hid]
    rfl
  | joined ha hr => exact nobody hr
  | refused ha hq hroom hm hid hpw hr => exact nobody hr
  | edited ha hr => exact nobody hr
  | wrote ha hr => exact nobody hr
  | rejected ha hr => exact nobody hr
  | timedOut => exact .inl (congrArg (Option.map _) hl)
  | slept ha hr => exact nobody hr

/-- **A room that is gone does not come back.** -/
theorem Turn.lost {w : World} {id : String} {a : Act} {x y : Place} (h : Turn w id a x y) (hn : ¬ w.Aliased id)
    (hl : x.Lost id) : y.Lost id := by
  refine ⟨?_, h.past_ne hl.past, ?_⟩
  · rcases h.awakes hn hl.live with hy | ⟨hp, -⟩ | ⟨r, -, hf⟩
    · exact hy
    · exact absurd hp hl.past
    · rw [hl.file] at hf
      cases hf
  · rcases h.saving hn with hf | ⟨hf, -⟩ | ⟨r, r', st, hr, -⟩
    · rw [hf]
      exact hl.file
    · rw [hf]
      rfl
    · rw [hl.live] at hr
      cases hr

/-- **A turn keeps the terms of a started game, or the room is gone.** -/
theorem Turn.terms {w : World} {id : String} {a : Act} {x y : Place} (h : Turn w id a x y) (hn : ¬ w.Aliased id)
    (hx : x = w.place id) (hk : ∀ r, x.live = some r → r.id = id) (hs : x.Settled id) (hshape : ∀ r, x.live = some r → r.Shaped)
    {g : Terms} (hg : x.terms id = some g) : y.terms id = some g ∨ y.Lost id := by
  cases hl : x.live with
  | some r =>
    have hstart : r.started = true ∧ r.terms = g := by
      unfold Place.terms at hg
      rw [hl] at hg
      dsimp only at hg
      split at hg
      · exact ⟨by assumption, Option.some.inj hg⟩
      · cases hg
    have hpast : y.past ≠ [] := h.past_ne (hs.seen r hl)
    cases hy : y.live with
    | some r' =>
      have ht := (h.change hx).terms_eq hl hy hstart.1
      refine .inl ?_
      unfold Place.terms
      rw [hy]
      dsimp only
      rw [if_pos (show r'.started = true from (congrArg Terms.started ht).trans hstart.1), ht, hstart.2]
    | none =>
      have hyt : y.terms id = y.file.bind (RoomFile.terms id) := by unfold Place.terms; rw [hy]
      cases hf : y.file.bind (RoomFile.terms id) with
      | none => exact .inr ⟨hy, hpast, hf⟩
      | some g' =>
        refine .inl (hyt.trans (hf.trans (congrArg some ?_)))
        rcases h.saving hn with hfile | ⟨hfile, -⟩ | ⟨r₀, r', st, hr₀, ht, hid, hp, hfile⟩
        · rw [hfile] at hf
          rw [hs.file r g' hl hf, hstart.2]
        · rw [hfile] at hf
          cases hf
        · rw [hl] at hr₀
          cases hr₀
          have hgame : r'.started = true ∧ r'.fixed = true ∧ r'.migration = true := by
            have hsh := (hshape r hl).game ((congrArg Terms.persistent ht).symm.trans hp)
            exact ⟨(congrArg Terms.started ht).trans hsh.1, (congrArg Terms.fixed ht).trans hsh.2.1,
              (congrArg Terms.migration ht).trans hsh.2.2⟩
          rw [hfile, Option.bind_some, ← hk r hl, ← hid, RoomFile.terms_header hgame hp] at hf
          rw [← Option.some.inj hf, ht, hstart.2]
  | none =>
    have hgx : x.file.bind (RoomFile.terms id) = some g := by
      unfold Place.terms at hg
      rw [hl] at hg
      exact hg
    rcases h.awakes hn hl with hy | ⟨-, hnone⟩ | ⟨r, hr, ht⟩
    · have hyt : y.terms id = y.file.bind (RoomFile.terms id) := by unfold Place.terms; rw [hy]
      rcases h.saving hn with hf | ⟨hf, hp⟩ | ⟨r, r', st, hr, -⟩
      · exact .inl (by rw [hyt, hf, hgx])
      · exact .inr ⟨hy, hp, by rw [hf]; rfl⟩
      · rw [hl] at hr
        cases hr
    · rw [hnone] at hgx
      cases hgx
    · refine .inl ?_
      have hstarted := RoomFile.terms_started ht
      unfold Place.terms
      rw [hr]
      dsimp only
      rw [if_pos (show r.started = true from hstarted), ← hgx, ht]

/-! Over whole runs. -/

/-- What every world of a run is like, around one room. -/
structure World.Orderly (w : World) (id : String) : Prop where
  keyed : w.Keyed
  seated : w.Seated
  filed : w.Filed
  shaped : ∀ r, w.rooms id = some r → r.Shaped
  settled : lowerText id = id → (w.place id).Settled id

theorem Move.orderly {a : Act} {w w' : World} {id : String} (h : Move a w w') (hw : w.Orderly id) : w'.Orderly id :=
  ⟨h.keyed hw.keyed, h.seated hw.seated, h.filed hw.keyed hw.filed, (h.turn hw.keyed hw.seated id).shaped hw.shaped,
    fun hid => (h.turn hw.keyed hw.seated id).settled (hw.filed.not_aliased hid) (hw.settled hid)⟩

theorem Path.orderly {w : World} {ws : Nat → World} {n : Nat} (h : Path w ws n) {id : String} (hw : w.Orderly id) {i : Nat}
    (hi : i ≤ n) : (ws i).Orderly id :=
  (h.mono hi).invariant (I := fun w => w.Orderly id) (fun _ _ _ hm hw => hm.orderly hw) hw

omit [Extern] in
/-- Terms are read of a lower-case identifier. -/
theorem World.Orderly.lower {w : World} {id : String} (h : w.Orderly id) {g : Terms} (hg : (w.place id).terms id = some g) :
    lowerText id = id := by
  cases hl : w.rooms id with
  | some r => exact h.filed.live hl
  | none =>
    have hg' : (w.files (lowerText id)).bind (RoomFile.terms id) = some g := by
      unfold Place.terms World.place at hg
      rw [hl] at hg
      exact hg
    obtain ⟨f, hf, hft⟩ := Option.bind_eq_some_iff.1 hg'
    cases f with
    | corrupt n => cases hft
    | record hd st =>
      change (if hd.idx "roomId" = .str id then some (Store.roomOf hd id 0).terms else none) = some g at hft
      split at hft
      · rename_i hid
        have hroom := (h.filed.files hf).2 hd st rfl
        rw [hid] at hroom
        exact (Value.str.inj hroom).symm
      · cases hft

namespace Path

variable {w : World} {ws : Nat → World} {n : Nat}

/-- **A game keeps its terms as long as it is there, and once gone it is gone.** -/
theorem terms (h : Path w ws n) {id : String} (hw : w.Orderly id) {i : Nat} {g : Terms}
    (hg : ((ws i).place id).terms id = some g) : ∀ {k : Nat}, i + k ≤ n →
    ((ws (i + k)).place id).terms id = some g ∨ ((ws (i + k)).place id).Lost id
  | 0, _ => .inl hg
  | k + 1, hk => by
    have ho := h.orderly hw (i := i + k) (by omega)
    have hid := (h.orderly hw (i := i) (by omega)).lower hg
    obtain ⟨a, ha⟩ := h.acts (i + k) (by omega)
    have hturn := ha.turn ho.keyed ho.seated id
    have hn := ho.filed.not_aliased hid
    rcases terms h hw hg (k := k) (by omega) with ht | hl
    · exact hturn.terms hn rfl (fun r hr => ho.keyed.rooms hr) (ho.settled hid) ho.shaped ht
    · exact .inr (hturn.lost hn hl)

theorem lost (h : Path w ws n) {id : String} (hw : w.Orderly id) (hid : lowerText id = id) {i : Nat}
    (hl : ((ws i).place id).Lost id) : ∀ {k : Nat}, i + k ≤ n → ((ws (i + k)).place id).Lost id
  | 0, _ => hl
  | k + 1, hk => by
    have ho := h.orderly hw (i := i + k) (by omega)
    obtain ⟨a, ha⟩ := h.acts (i + k) (by omega)
    exact (ha.turn ho.keyed ho.seated id).lost (ho.filed.not_aliased hid) (lost h hw hid hl (k := k) (by omega))

end Path

theorem boot_orderly (config : Config) {store : Store} (push : Bool) (hst : store.Filed) (id : String) :
    (Server.boot config store push).world.Orderly id where
  keyed := (Server.boot_base config store push).keyed
  seated := Server.boot_seated config store push
  filed := Server.boot_filed config push hst
  shaped := by
    intro r hr
    cases hr
  settled := fun _ => .of_none rfl

end Started

namespace Server

variable [Extern]

end Server
end Relay
