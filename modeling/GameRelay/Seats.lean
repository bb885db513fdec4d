import GameRelay.Steps
/-!
# Seats — an account's room is live and has it

`World.Seated` is the half of membership that every act keeps, whatever the run: where an account says it sits, a live
room has it active.  Membership is read off rooms in this module: who a leaving account takes along, who remains.
-/
namespace Relay

open Function (update)

/-- Every account that sits somewhere is active in that live room. -/
def World.Seated (w : World) : Prop :=
  ∀ ⦃p q id⦄, w.seats p = some q → q.room = some id → ∃ r, w.rooms id = some r ∧ p ∈ r.active

theorem World.Sent.seated {w w' : World} (h : w.Sent w') (hw : w.Seated) : w'.Seated := by
  obtain ⟨l, q, -, -, rfl⟩ := h
  exact hw

theorem World.Seated.mem {w : World} (hw : w.Seated) {p id : String} {r : Room} (h : w.Sits p id r) : p ∈ r.active := by
  obtain ⟨⟨q, hq, hid⟩, hr⟩ := h
  obtain ⟨r₀, hr₀, hm⟩ := hw hq hid
  rw [hr] at hr₀; cases hr₀
  exact hm

/-! Leaving. -/

theorem departed_active (r : Room) (p : String) (d : Bool) :
    (Server.departed r p d).active = r.active.shiftRemove p := by
  unfold Server.departed
  dsimp only
  repeat' split
  all_goals rfl

/-- **Who remains in a room is who was not released with `p`.** -/
theorem mem_remains {r : Room} {p x : String} {d : Bool} :
    x ∈ (remains r p d).active ↔ x ∈ r.active ∧ x ∉ released r p d := by
  unfold remains released
  split
  · rw [departed_active]
    constructor
    · intro h; exact absurd h IndexSet.mem_empty
    · rintro ⟨h, hn⟩
      refine absurd ?_ hn
      by_cases hx : x = p
      · rw [hx]; exact List.mem_cons_self ..
      · exact List.mem_cons_of_mem _ (IndexSet.mem_shiftRemove.2 ⟨h, hx⟩)
  · rw [departed_active, IndexSet.mem_shiftRemove, List.mem_singleton]

/-- A released account is `p` or was in the room. -/
theorem mem_released {r : Room} {p x : String} {d : Bool} (h : x ∈ released r p d) : x = p ∨ x ∈ r.active := by
  unfold released at h
  rcases List.mem_cons.1 h with h | h
  · exact .inl h
  · split at h
    · rw [departed_active] at h
      exact .inr (IndexSet.mem_shiftRemove.1 h).1
    · cases h

/-- What leaving does to the tables: the released are out, and the room is gone or holds who remains. -/
inductive World.LeftShape (p : String) (d : Bool) (w w' : World) : Prop
  | nowhere {q : Seat} (hq : w.seats p = some q) (hr : q.room.bind (dropSeats w.rooms p d) = none)
      (hs : w'.seats = releaseAll w.seats [p]) (hrooms : w'.rooms = dropSeats w.rooms p d)
  | room {q : Seat} {id : String} {r : Room} {o : Option Room} (hq : w.seats p = some q) (hid : q.room = some id)
      (hr : dropSeats w.rooms p d id = some r) (hs : w'.seats = releaseAll w.seats (released r p d))
      (hrooms : w'.rooms = update (dropSeats w.rooms p d) id o)
      (hnone : o = none → (remains r p d).active.isEmpty = true)
      (hsome : ∀ r', o = some r' → r'.active = (remains r p d).active ∧ r'.persistent = r.persistent ∧
        (r'.active.isEmpty = true → r'.persistent = true))

theorem handedOver_keeps (r : Room) (p first : String) :
    (handedOver r p first).active = r.active ∧ (handedOver r p first).persistent = r.persistent := by
  unfold handedOver; split <;> exact ⟨rfl, rfl⟩

theorem World.Left.shape {p : String} {d : Bool} {w w' : World} (h : w.Left p d w') : w.LeftShape p d w' := by
  cases h with
  | nowhere hq hr => exact .nowhere hq hr rfl rfl
  | deleted hq hid hr he hp => exact .room hq hid hr rfl rfl (fun _ => he) (fun r' h => nomatch h)
  | slept hq hid hr he hp hs =>
    cases hs
    exact .room hq hid hr rfl rfl (fun _ => he) (fun r' h => nomatch h)
  | kept hq hid hr he hp =>
    refine .room hq hid hr rfl rfl (fun h => nomatch h) (fun r' h => ?_)
    cases h
    exact ⟨rfl, (remains_keeps _ _ _).2.2.2, fun _ => (remains_keeps _ _ _).2.2.2.trans hp⟩
  | stayed hq hid hr hf =>
    refine .room hq hid hr rfl rfl (fun h => nomatch h) (fun r' h => ?_)
    cases h
    rename_i q id r first
    have hk := handedOver_keeps (remains r p d) p first
    refine ⟨hk.1, hk.2.trans (remains_keeps _ _ _).2.2.2, fun he => ?_⟩
    rw [hk.1] at he
    exact absurd (IndexSet.mem_of_first hf) (IndexSet.isEmpty_iff.1 he first)

theorem dropSeats_active {rooms : String → Option Room} {p x : String} {d : Bool} {r : Room}
    (h : dropSeats rooms p d x = some r) :
    ∃ r₀, rooms x = some r₀ ∧ r.active = r₀.active ∧ r.persistent = r₀.persistent := by
  obtain ⟨r₀, hr₀, rfl | rfl⟩ := dropSeats_some h
  · exact ⟨r, hr₀, rfl, rfl⟩
  · exact ⟨r₀, hr₀, rfl, rfl⟩

theorem dropSeats_of {rooms : String → Option Room} {p x : String} (d : Bool) {r₀ : Room} (h : rooms x = some r₀) :
    ∃ r, dropSeats rooms p d x = some r ∧ r.active = r₀.active := by
  unfold dropSeats
  rw [h]
  split
  · exact ⟨r₀, rfl, rfl⟩
  · exact ⟨_, rfl, rfl⟩

theorem joined_mem {r : Room} {p x : String} : x ∈ (Server.joined r p).active ↔ x = p ∨ x ∈ r.active := by
  unfold Server.joined; dsimp only; split <;> exact IndexSet.mem_insert

/-- Who sits after leaving sat before, and was not released. -/
theorem releaseAll_room {seats : String → Option Seat} {ids : List String} {x id : String} {q : Seat}
    (h : releaseAll seats ids x = some q) (hid : q.room = some id) : x ∉ ids ∧ seats x = some q := by
  rcases releaseAll_some h with h | ⟨-, q₀, -, rfl⟩
  · exact h
  · cases hid

theorem World.Left.seated {p : String} {d : Bool} {w w' : World} (h : w.Left p d w') (hw : w.Seated) : w'.Seated := by
  intro x q' id' hx hid'
  cases h.shape with
  | nowhere hq hr hs hrooms =>
    rw [hs] at hx
    obtain ⟨-, hx⟩ := releaseAll_room hx hid'
    obtain ⟨r₀, hr₀, hm⟩ := hw hx hid'
    obtain ⟨r, hr', ha⟩ := dropSeats_of (p := p) d hr₀
    exact ⟨r, by rw [hrooms]; exact hr', ha ▸ hm⟩
  | room hq hid hr hs hrooms hnone hsome =>
    rename_i q id r o
    rw [hs] at hx
    obtain ⟨hn, hx⟩ := releaseAll_room hx hid'
    obtain ⟨r₁, hr₁, hm⟩ := hw hx hid'
    obtain ⟨r₂, hr₂, ha₂⟩ := dropSeats_of (p := p) d hr₁
    rw [hrooms]
    by_cases hne : id' = id
    · subst hne
      rw [hr] at hr₂; cases hr₂
      have hx' : x ∈ (remains r p d).active := mem_remains.2 ⟨ha₂ ▸ hm, hn⟩
      cases ho : o with
      | none => exact absurd hx' (IndexSet.isEmpty_iff.1 (hnone ho) x)
      | some r' => exact ⟨r', Function.update_self .., by rw [(hsome r' ho).1]; exact hx'⟩
    · exact ⟨r₂, by rw [Function.update_of_ne hne]; exact hr₂, ha₂ ▸ hm⟩

/-- The seat of one account changes to one in no room, or in its room. -/
theorem World.Seated.seat {w : World} (hw : w.Seated) {x : String} {o : Option Seat}
    (ho : ∀ q id, o = some q → q.room = some id → ∃ q₀, w.seats x = some q₀ ∧ q₀.room = some id) {w' : World}
    (hs : w'.seats = update w.seats x o) (hr : w'.rooms = w.rooms) : w'.Seated := by
  intro p q id hp hid
  rw [hs] at hp
  rw [hr]
  rcases update_some hp with ⟨rfl, h⟩ | ⟨-, h⟩
  · obtain ⟨q₀, hq₀, hid₀⟩ := ho q id h hid
    exact hw hq₀ hid₀
  · exact hw h hid

/-- One room changes, and keeps who was active in it. -/
theorem World.Seated.room {w : World} (hw : w.Seated) {x : String} {o : Option Room}
    (ho : ∀ r p, w.rooms x = some r → p ∈ r.active → ∃ r', o = some r' ∧ p ∈ r'.active) {w' : World}
    (hs : w'.seats = w.seats) (hr : w'.rooms = update w.rooms x o) : w'.Seated := by
  intro p q id hp hid
  rw [hs] at hp
  rw [hr]
  obtain ⟨r₀, hr₀, hm⟩ := hw hp hid
  by_cases hx : id = x
  · subst hx
    obtain ⟨r', hr', hm'⟩ := ho r₀ p hr₀ hm
    exact ⟨r', by rw [hr']; exact Function.update_self .., hm'⟩
  · exact ⟨r₀, by rw [Function.update_of_ne hx]; exact hr₀, hm⟩

theorem World.Seated.mapRooms {w : World} (hw : w.Seated) {f : Room → Room} (hf : ∀ r, (f r).active = r.active) :
    World.Seated { w with rooms := fun x => (w.rooms x).map f } := by
  intro p q id hp hid
  obtain ⟨r₀, hr₀, hm⟩ := hw hp hid
  exact ⟨f r₀, by show (w.rooms id).map f = _; rw [hr₀]; rfl, by rw [hf r₀]; exact hm⟩

/-- An account takes a place in a room that was live, or that nobody sat in. -/
theorem World.Seated.enter {w : World} (hw : w.Seated) {p id : String} {q : Seat} {r : Room}
    (hr : ∀ r₀, w.rooms id = some r₀ → r₀ = r) {w' : World} (hs : w'.seats = w.enterSeat p id q)
    (hrooms : w'.rooms = update w.rooms id (some (Server.joined r p))) : w'.Seated := by
  intro x q' id' hx hid'
  rw [hs] at hx
  rw [hrooms]
  rcases update_some hx with ⟨rfl, h⟩ | ⟨-, h⟩
  · cases h
    cases hid'
    exact ⟨_, Function.update_self .., joined_mem.2 (.inl rfl)⟩
  · obtain ⟨r₀, hr₀, hm⟩ := hw h hid'
    by_cases he : id' = id
    · subst he
      rw [hr r₀ hr₀] at hm
      exact ⟨_, Function.update_self .., joined_mem.2 (.inr hm)⟩
    · exact ⟨r₀, by rw [Function.update_of_ne he]; exact hr₀, hm⟩

variable [Extern]

theorem Edit.active_eq {c : Config} {jobs jobs' : String → List Value} {p : String} {d : Value} {r r' : Room}
    {es : List Event} (h : Edit c jobs p d r r' es jobs') : r'.active = r.active := by
  cases h with
  | settings ho hs hmax hsize hfit => unfold joinClosed; split <;> rfl
  | _ => rfl

omit [Extern] in
theorem timeoutUpload_active (now : Nat) (r : Room) : (Server.timeoutUpload now r).active = r.active := by
  unfold Server.timeoutUpload; split <;> rfl

/-- **Every act keeps each account's room live, with it in it.** -/
theorem Effect.seated {a : Act} {w w' : World} (h : Effect a w w') (hw : w.Seated) : w'.Seated := by
  -- a room nobody sits in goes
  have unload : ∀ {id r}, w.rooms id = some r → r.active.isEmpty = true → ∀ {w' : World}, w'.seats = w.seats →
      w'.rooms = update w.rooms id none → w'.Seated := fun hr he _ hs hrooms =>
    hw.room (fun r₀ p hr₀ hm => by rw [hr] at hr₀; cases hr₀; exact absurd hm (IndexSet.isEmpty_iff.1 he p)) hs hrooms
  have set : ∀ {p id r r'}, w.Sits p id r → r'.active = r.active → ∀ {w' : World}, w'.seats = w.seats →
      w'.rooms = update w.rooms id (some r') → w'.Seated := fun hsit ha _ hs hrooms =>
    hw.room (fun r₀ p hr₀ hm => by rw [hsit.2] at hr₀; cases hr₀; exact ⟨_, rfl, ha ▸ hm⟩) hs hrooms
  cases h with
  | idle => exact hw
  | connected h => exact hw
  | unlinked hl hq => exact hw
  | queued hd => exact hw
  | gone hl hp hq hc h =>
    refine h.seated (hw.seat (fun q id he hid => ?_) rfl rfl)
    cases he
    exact ⟨_, hq, hid⟩
  | expired hq hc hf =>
    refine World.Seated.seat (hw.mapRooms (f := Room.dropReservation _) (fun _ => rfl)) (fun q id he => ?_) rfl rfl
    cases he
  | bound hl hp hq =>
    refine hw.seat (fun q id he hid => ?_) rfl rfl
    cases he
    exact ⟨_, hq, hid⟩
  | recalled hl hp =>
    refine hw.seat (fun q id he hid => ?_) rfl rfl
    cases he
    cases hid
  | rekeyed hl hu => exact hw
  | departed h => exact h.seated hw
  | left h => exact h.seated hw
  | entered hq hc hr hf he =>
    refine hw.enter (fun r₀ hr₀ => ?_) rfl rfl
    rcases hf with ⟨-, hr⟩ | ⟨-, hn, -⟩
    · rw [hr] at hr₀; exact (Option.some.inj hr₀).symm
    · rw [hn] at hr₀; cases hr₀
  | refused hm hid hpw hq hroom hr ha hp he => exact unload hr ha rfl rfl
  | created hq hc hr hid hfile hhist hlow hroom hmax hfit =>
    exact hw.enter (fun r₀ hr₀ => by rw [hid] at hr₀; cases hr₀) rfl rfl
  | edited hs he => exact set hs he.active_eq rfl rfl
  | wrote hs hp hb hu hid hst => refine set hs ?_ rfl rfl; rfl
  | rejected hs hp hb hu hid hst => refine set hs ?_ rfl rfl; rfl
  | timedOut => exact hw.mapRooms (timeoutUpload_active _)
  | slept hr hp ha h =>
    cases h
    exact unload hr ha rfl rfl

theorem Move.seated {a : Act} {w w' : World} (h : Move a w w') (hw : w.Seated) : w'.Seated := by
  obtain ⟨w₁, he, hs⟩ := h
  exact hs.seated (he.seated hw)

omit [Extern] in
theorem Server.boot_seated (config : Config) (store : Store) (push : Bool) : (boot config store push).world.Seated :=
  fun _ _ _ h => nomatch h

end Relay
