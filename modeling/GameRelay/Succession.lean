import GameRelay.Changes
import GameRelay.Commits
import GameRelay.Line
/-!
# Succession — who hosts a room, and under which generation

A room's members stand in line (`Change.lined`), and its owner is the first of them (`Room.Led`): ownership follows
seniority.  Its generation goes up with each new host; `Place.host` follows owner and generation into the room's file
and back, as long as each act `Continues` the room.
-/
namespace Relay

open Function (update)

/-- The owner of a room with members is the first of them, and only a persistent room is empty. -/
structure Room.Led (r : Room) : Prop where
  first : ∀ p, r.active.first = some p → r.owner = p
  empty : r.active.isEmpty = true → r.persistent = true

theorem Room.Led.of_eq {r r' : Room} (h : r.Led) (ha : r'.active = r.active) (ho : r'.owner = r.owner)
    (hp : r.persistent = true → r'.persistent = true) : r'.Led :=
  ⟨fun p hf => by rw [ho]; exact h.first p (ha ▸ hf), fun he => hp (h.empty (ha ▸ he))⟩

theorem joined_items (r : Room) (p : String) : (Server.joined r p).active = r.active.insert p := by
  unfold Server.joined; dsimp only; split <;> rfl

theorem joined_owner (r : Room) (p : String) :
    (Server.joined r p).owner = if Server.hosts r then p else r.owner := by
  unfold Server.joined; dsimp only; split <;> rfl

theorem insert_first {s : IndexSet String} {p a : String} (h : (s.insert p).first = some a) :
    (s.isEmpty = true ∧ a = p) ∨ s.first = some a := by
  unfold IndexSet.insert at h
  split at h
  · exact .inr h
  · change (s.items ++ [p]).head? = some a at h
    cases hs : s.items with
    | nil =>
      refine .inl ⟨by rw [IndexSet.isEmpty, hs]; rfl, ?_⟩
      rw [hs] at h
      exact (Option.some.inj h).symm
    | cons b l =>
      refine .inr ?_
      rw [hs] at h
      rw [IndexSet.first, hs]
      exact h

/-- A room that someone joined is led: by its new host if it was empty, by its owner otherwise. -/
theorem Room.Led.joined {r : Room} (p : String) (h : r.active.isEmpty = false → r.Led)
    (he : r.active.isEmpty = true → r.persistent = true ∨ r.owner = p) : (Server.joined r p).Led := by
  refine ⟨fun a ha => ?_, fun hempty => ?_⟩
  · rw [joined_items] at ha
    rw [joined_owner]
    rcases insert_first ha with ⟨hemp, rfl⟩ | hfirst
    · split
      · rfl
      · rename_i hh
        rcases he hemp with hp | ho
        · exact absurd (by unfold Server.hosts; rw [hp, hemp]; rfl) hh
        · exact ho
    · have hne : r.active.isEmpty = false := IndexSet.isEmpty_eq_false.2 ⟨a, IndexSet.mem_of_first hfirst⟩
      rw [if_neg (by unfold Server.hosts; rw [hne, Bool.and_false]; simp)]
      exact (h hne).first a hfirst
  · rw [joined_items] at hempty
    exact absurd (IndexSet.mem_insert.2 (.inl rfl)) (IndexSet.isEmpty_iff.1 hempty p)

/-- Who remains, in the same order. -/
theorem remains_sublist (r : Room) (p : String) (d : Bool) : (remains r p d).active.items.Sublist r.active.items := by
  unfold remains
  split
  · exact List.nil_sublist _
  · rw [departed_active]
    exact List.filter_sublist

/-- The first of those who remain was first before, or `p` was. -/
theorem remains_first {r : Room} {p first : String} {d : Bool} (h : (remains r p d).active.first = some first) :
    r.active.first = some first ∨ r.active.first = some p := by
  have hact : (remains r p d).active = r.active.shiftRemove p := by
    unfold remains at h ⊢
    split
    · rename_i hl
      rw [if_pos hl] at h
      cases h
    · exact departed_active r p d
  rw [hact] at h
  change (r.active.items.filter (fun b => decide (b ≠ p))).head? = some first at h
  unfold IndexSet.first
  cases hl : r.active.items with
  | nil => rw [hl] at h; cases h
  | cons b l =>
    rw [hl, List.filter_cons] at h
    by_cases hb : b = p
    · rw [hb]; exact .inr rfl
    · rw [if_pos (decide_eq_true hb)] at h
      exact .inl h

theorem handedOver_led {r : Room} (hr : r.Led) {p first : String} {d : Bool}
    (hf : (remains r p d).active.first = some first) : (handedOver (remains r p d) p first).Led := by
  have ho : (remains r p d).owner = r.owner := (remains_keeps r p d).2.1
  refine ⟨fun a ha => ?_, fun he => ?_⟩
  · rw [(handedOver_keeps _ _ _).1, hf] at ha
    cases ha
    unfold handedOver
    rw [ho]
    split
    · rfl
    · rename_i hne
      rw [ho]
      rcases remains_first hf with h | h
      · exact hr.first _ h
      · exact absurd (hr.first _ h) hne
  · rw [(handedOver_keeps _ _ _).1] at he
    exact absurd (IndexSet.mem_of_first hf) (IndexSet.isEmpty_iff.1 he first)

theorem dropSeat_led {r₀ r : Room} {p : String} {d : Bool} (h : dropSeat (some r₀) p d = some r) :
    r = r₀ ∨ r = r₀.dropReservation p := by
  unfold dropSeat at h
  split at h
  · exact .inl (Option.some.inj h).symm
  · exact .inr (Option.some.inj h).symm

theorem Edit.owner_eq [Extern] {c : Config} {jobs jobs' : String → List Value} {p : String} {d : Value} {r r' : Room}
    {es : List Event} (h : Edit c jobs p d r r' es jobs') : r'.owner = r.owner := by
  cases h with
  | settings => unfold joinClosed; split <;> rfl
  | _ => rfl

variable [Extern]

/-- **Every change leaves live rooms led.** -/
theorem Change.led {w : World} {id : String} {a : Act} {o o' : Option Room} (h : Change w id a o o')
    (ho : ∀ r, o = some r → r.Led) : ∀ r, o' = some r → r.Led := by
  have one : ∀ {r₁ : Room}, r₁.Led → ∀ r, some r₁ = some r → r.Led := fun h r hr => Option.some.inj hr ▸ h
  have unseat : ∀ {r₀ r : Room} {p : String} {d : Bool}, o = some r₀ → dropSeat (some r₀) p d = some r → r.Led := by
    intro r₀ r p d hr₀ hr
    rcases dropSeat_led hr with rfl | rfl
    · exact ho r hr₀
    · exact (ho r₀ hr₀).of_eq rfl rfl (fun h => h)
  cases h with
  | same => exact ho
  | gone => exact fun r hr => nomatch hr
  | unseated p => exact one ((ho _ rfl).of_eq rfl rfl (fun h => h))
  | timedOut ha =>
    refine one ((ho _ rfl).of_eq (timeoutUpload_active _ _) ?_ ?_)
    · unfold Server.timeoutUpload; split <;> rfl
    · unfold Server.timeoutUpload; split <;> exact fun h => h
  | kept ha hr he hp =>
    rename_i r₀ r p d
    refine one ⟨fun q hq => ?_, fun _ => (remains_keeps r p d).2.2.2.trans hp⟩
    exact absurd (IndexSet.mem_of_first hq) (IndexSet.isEmpty_iff.1 he q)
  | stayed ha hr hf => exact one (handedOver_led (unseat rfl hr) hf)
  | created ha hnew hroom hmax hfit =>
    subst hroom
    exact one (.joined _ (fun h => nomatch h) (fun _ => .inr rfl))
  | woken ha hfile hid hlen hroom he =>
    subst hroom
    exact one (.joined _ (fun h => nomatch h) (fun _ => .inl rfl))
  | joined ha he => exact one (.joined _ (fun _ => ho _ rfl) (fun hemp => .inl ((ho _ rfl).empty hemp)))
  | edited ha hm he =>
    rename_i p v r r' es jobs jobs'
    refine one ⟨fun q hq => ?_, fun hemp => ?_⟩
    · rw [he.owner_eq]
      exact (ho r rfl).first q (he.active_eq ▸ hq)
    · rw [he.active_eq] at hemp
      exact absurd hm (IndexSet.isEmpty_iff.1 hemp p)
  | wrote => exact one ((ho _ rfl).of_eq rfl rfl (fun h => h))
  | rejected => exact one ((ho _ rfl).of_eq rfl rfl (fun h => h))

/-- The members of a live room, in its order. -/
def membersOf (o : Option Room) : List String := (o.map (fun r => r.active.items)).getD []

omit [Extern] in
theorem insert_lined (s : IndexSet String) (p : String) : Lined s.items (s.insert p).items := by
  unfold IndexSet.insert
  split
  · exact .refl _
  · exact .snoc (by assumption)

/-- **A room's members stand in line.** -/
theorem Change.lined {w : World} {id : String} {a : Act} {o o' : Option Room} (h : Change w id a o o') :
    Lined (membersOf o) (membersOf o') := by
  have unseat : ∀ {r₀ r : Room} {p : String} {d : Bool}, dropSeat (some r₀) p d = some r → r.active = r₀.active := by
    intro r₀ r p d hr
    rcases dropSeat_led hr with rfl | rfl <;> rfl
  cases h with
  | same => exact .refl _
  | gone => exact .of_sublist (List.nil_sublist _)
  | unseated p => exact .refl _
  | timedOut ha =>
    rename_i r now
    show Lined r.active.items (Server.timeoutUpload now r).active.items
    rw [timeoutUpload_active]
    exact .refl _
  | kept ha hr he hp =>
    rename_i r₀ r p d
    show Lined r₀.active.items (remains r p d).active.items
    rw [← unseat hr]
    exact .of_sublist (remains_sublist r p d)
  | stayed ha hr hf =>
    rename_i r₀ r p first d
    show Lined r₀.active.items (handedOver (remains r p d) p first).active.items
    rw [(handedOver_keeps _ _ _).1, ← unseat hr]
    exact .of_sublist (remains_sublist r p d)
  | created => exact .start _
  | woken => exact .start _
  | joined ha he =>
    rename_i p v pw r
    show Lined r.active.items (Server.joined r p).active.items
    rw [joined_items]
    exact insert_lined r.active p
  | edited ha hm he =>
    rename_i p v r r' es jobs jobs'
    show Lined r.active.items r'.active.items
    rw [he.active_eq]
    exact .refl _
  | wrote => exact .refl _
  | rejected => exact .refl _

/-! Generations. -/

/-- Who hosts the room that a file holds. -/
def RoomFile.host : RoomFile → Option (String × Nat)
  | .record hd _ => some (((hd.idx "ownerId").asStr).getD "", ((hd.idx "generation").asU64).getD 0)
  | .corrupt _ => none

/-- Who hosts a room and under which generation, live or on file. -/
def Place.host (x : Place) : Option (String × Nat) :=
  match x.live with
  | some r => some (r.owner, r.generation)
  | none => x.file.bind RoomFile.host

/-- **The act holds on to the room**: it is live; or it was saved as it was and is on file; or its file stays. -/
def Continues (x y : Place) : Prop :=
  y.live.isSome ∨ (y.live = none ∧
    ((x.live = none ∧ y.file = x.file) ∨ ∃ r r' : Room, x.live = some r ∧ r'.owner = r.owner ∧
      r'.generation = r.generation ∧ y.file = some (.record r'.header r'.state)))

/-- **A new host, a new generation.** -/
structure Fenced (a b : String × Nat) : Prop where
  grows : a.2 ≤ b.2
  owner : a.1 ≠ b.1 → a.2 < b.2

omit [Extern] in
theorem Fenced.trans {a b c : String × Nat} (h : Fenced a b) (h' : Fenced b c) : Fenced a c := by
  refine ⟨Nat.le_trans h.grows h'.grows, fun hne => ?_⟩
  by_cases hab : a.1 = b.1
  · exact Nat.lt_of_le_of_lt h.grows (h'.owner (hab ▸ hne))
  · exact Nat.lt_of_lt_of_le (h.owner hab) h'.grows

omit [Extern] in
theorem Fenced.refl (a : String × Nat) : Fenced a a := ⟨Nat.le_refl _, fun h => absurd rfl h⟩

omit [Extern] in
theorem Fenced.same {a b : String × Nat} (h : b = a) : Fenced a b := h ▸ .refl a

omit [Extern] in
theorem Fenced.next {a : String × Nat} (p : String) : Fenced a (p, a.2 + 1) := ⟨Nat.le_succ _, fun _ => Nat.lt_succ_self _⟩

/-- **A live room's generation goes up with every new host, and when someone enters it empty.** -/
theorem Change.fenced {w : World} {id : String} {a : Act} {r r' : Room} {o o' : Option Room} (h : Change w id a o o')
    (ho : o = some r) (ho' : o' = some r') (hled : r.Led) : Fenced (r.owner, r.generation) (r'.owner, r'.generation) ∧
      (r.active.isEmpty = true → r'.active.isEmpty = false → r.generation < r'.generation) := by
  have still : ∀ {r₁ r₂ : Room}, r₂.owner = r₁.owner → r₂.generation = r₁.generation → r₂.active = r₁.active →
      Fenced (r₁.owner, r₁.generation) (r₂.owner, r₂.generation) ∧
        (r₁.active.isEmpty = true → r₂.active.isEmpty = false → r₁.generation < r₂.generation) := by
    intro r₁ r₂ h₁ h₂ h₃
    refine ⟨.same (by rw [h₁, h₂]), fun he hn => ?_⟩
    rw [h₃, he] at hn
    cases hn
  have unseat : ∀ {r₀ r : Room} {p : String} {d : Bool}, dropSeat (some r₀) p d = some r →
      r.owner = r₀.owner ∧ r.generation = r₀.generation ∧ r.active = r₀.active := by
    intro r₀ r p d hr
    rcases dropSeat_led hr with rfl | rfl <;> exact ⟨rfl, rfl, rfl⟩
  cases h with
  | same => cases ho; cases ho'; exact still rfl rfl rfl
  | gone => cases ho'
  | unseated p => cases ho; cases ho'; exact still rfl rfl rfl
  | timedOut ha =>
    cases ho; cases ho'
    refine still ?_ ?_ (timeoutUpload_active _ _)
    · unfold Server.timeoutUpload; split <;> rfl
    · unfold Server.timeoutUpload; split <;> rfl
  | kept ha hr he hp =>
    rename_i r₁ p d
    cases ho; cases ho'
    obtain ⟨h₁, h₂, -⟩ := unseat hr
    obtain ⟨-, h₃, h₄, -⟩ := remains_keeps r₁ p d
    refine ⟨.same (by rw [h₃, h₄, h₁, h₂]), fun _ hn => ?_⟩
    rw [he] at hn
    cases hn
  | stayed ha hr hf =>
    rename_i r₁ p first d
    cases ho; cases ho'
    obtain ⟨h₁, h₂, h₃⟩ := unseat hr
    obtain ⟨-, h₄, h₅, -⟩ := remains_keeps r₁ p d
    refine ⟨?_, fun he _ => ?_⟩
    · unfold handedOver
      split
      · show Fenced (r.owner, r.generation) (first, (remains r₁ p d).generation + 1)
        rw [h₅, h₂]
        exact .next first
      · exact .same (by rw [h₄, h₅, h₁, h₂])
    · -- nobody remains of an empty room
      have hm : first ∈ r₁.active := (remains_sublist r₁ p d).subset (IndexSet.mem_of_first hf)
      rw [h₃] at hm
      exact absurd hm (IndexSet.isEmpty_iff.1 he first)
  | created => cases ho
  | woken => cases ho
  | joined ha he =>
    rename_i p v pw r₁
    cases ho; cases ho'
    have hgen : (Server.joined r p).generation = if Server.hosts r then r.generation + 1 else r.generation := by
      unfold Server.joined; dsimp only; split <;> rfl
    rw [joined_owner, hgen]
    split
    · exact ⟨.next p, fun _ _ => Nat.lt_succ_self _⟩
    · rename_i hh
      refine ⟨.refl _, fun hemp _ => ?_⟩
      exact absurd (by unfold Server.hosts; rw [hled.empty hemp, hemp]; rfl) hh
  | edited ha hm he =>
    cases ho; cases ho'
    refine still he.owner_eq ?_ he.active_eq
    cases he with
    | settings => unfold joinClosed; split <;> rfl
    | _ => rfl
  | wrote => cases ho; cases ho'; exact still rfl rfl rfl
  | rejected => cases ho; cases ho'; exact still rfl rfl rfl

/-- **An act that holds on to the room fences its hosts**, and who enters it empty comes under a new generation. -/
theorem Turn.fenced {w : World} {id : String} {a : Act} {x y : Place} (h : Turn w id a x y) (hx : x = w.place id)
    (hc : Continues x y) (hled : ∀ r, x.live = some r → r.Led) {g : String × Nat} (hg : x.host = some g) :
    ∃ g', y.host = some g' ∧ Fenced g g' ∧ (membersOf x.live = [] → membersOf y.live ≠ [] → g.2 < g'.2) := by
  have hch := h.change hx
  rcases hc with hlive | ⟨hnone, ⟨hxl, hfile⟩ | ⟨r, r', hr, ho, hgen, hfile⟩⟩
  · obtain ⟨r', hr'⟩ := Option.isSome_iff_exists.1 hlive
    refine ⟨(r'.owner, r'.generation), by unfold Place.host; rw [hr'], ?_⟩
    cases hl : x.live with
    | some r =>
      obtain ⟨hf, he⟩ := hch.fenced hl hr' (hled r hl)
      unfold Place.host at hg
      rw [hl] at hg
      cases hg
      refine ⟨hf, fun hm hm' => he (List.isEmpty_iff.2 hm) ?_⟩
      rw [hr'] at hm'
      exact List.isEmpty_eq_false_iff.2 hm'
    | none =>
      -- the room came from its file
      rw [hl] at hch
      unfold Place.host at hg
      rw [hl] at hg
      generalize hy : y.live = o at hch hr'
      cases hch with
      | same => cases hr'
      | gone => cases hr'
      | created ha hnew hroom hmax hfit =>
        rw [hx, hnew] at hg
        cases hg
      | woken ha hfile hid hlen hroom he =>
        rename_i p v pw hd st r now
        rw [hx, hfile] at hg
        cases hg
        cases hr'
        subst hroom
        exact ⟨.next p, fun _ _ => Nat.lt_succ_self _⟩
  · refine ⟨g, ?_, .refl g, fun _ hm => absurd (by rw [hnone]; rfl) hm⟩
    unfold Place.host at hg ⊢
    rw [hxl] at hg
    rw [hnone, hfile]
    exact hg
  · refine ⟨g, ?_, .refl g, fun _ hm => absurd (by rw [hnone]; rfl) hm⟩
    unfold Place.host at hg ⊢
    rw [hr] at hg
    rw [hnone, hfile]
    cases hg
    show some (r'.owner, r'.generation) = _
    rw [ho, hgen]

/-! Over whole runs. -/

namespace Path

variable {w : World} {ws : Nat → World} {n : Nat}

theorem led (h : Path w ws n) (hk : w.Keyed) (hs : w.Seated) {id : String} (hled : ∀ r, w.rooms id = some r → r.Led) :
    ∀ {i : Nat}, i ≤ n → ∀ r, (ws i).rooms id = some r → r.Led
  | 0, _ => by rw [h.start]; exact hled
  | i + 1, hi => by
    obtain ⟨a, ha⟩ := h.change hk hs id (Nat.lt_of_succ_le hi)
    exact ha.led (led h hk hs hled (Nat.le_of_succ_le hi))

/-- The account is in the room from act `j` to act `m`. -/
def Present (ws : Nat → World) (id p : String) (j m : Nat) : Prop :=
  ∀ i, j ≤ i → i ≤ m → p ∈ membersOf ((ws i).rooms id)

/-- **Who is listed before another has been in the room at least as long.** -/
theorem seniority (h : Path w ws n) (hk : w.Keyed) (hs : w.Seated) {id p q : String}
    (hpq : [p, q].Sublist (membersOf ((ws n).rooms id))) {j : Nat} (hq : Present ws id q j n) :
    Present ws id p j n := by
  have hl : ∀ i, i < n → Lined (membersOf ((ws i).rooms id)) (membersOf ((ws (i + 1)).rooms id)) := by
    intro i hi
    obtain ⟨a, ha⟩ := h.change hk hs id hi
    exact ha.lined
  intro i hji hin
  have hsub := Lined.stays hl hpq (k := n - i) (j := i) (by omega) (fun m hm => hq m (by omega))
  exact hsub.subset (List.mem_cons_self ..)

/-- **While the acts hold on to a room, its generation fences its hosts.** -/
theorem fenced (h : Path w ws n) (hk : w.Keyed) (hs : w.Seated) {id : String} (hled : ∀ r, w.rooms id = some r → r.Led)
    {i : Nat} {g : String × Nat} (hg : ((ws i).place id).host = some g) : ∀ {k : Nat}, i + k ≤ n →
    (∀ m, i ≤ m → m < i + k → Continues ((ws m).place id) ((ws (m + 1)).place id)) →
    ∃ g', ((ws (i + k)).place id).host = some g' ∧ Fenced g g' ∧
      (membersOf ((ws i).rooms id) = [] → membersOf ((ws (i + k)).rooms id) ≠ [] → g.2 < g'.2)
  | 0, _, _ => ⟨g, hg, .refl g, fun he hn => absurd he hn⟩
  | k + 1, hn, hc => by
    obtain ⟨g₁, hg₁, hf, hin⟩ := fenced h hk hs hled hg (k := k) (by omega) (fun m hm hmk => hc m hm (by omega))
    obtain ⟨a, ha⟩ := h.acts (i + k) (by omega)
    obtain ⟨hk', hs'⟩ := h.seated hk hs (i := i + k) (by omega)
    obtain ⟨g₂, hg₂, hf₂, hin₂⟩ := (ha.turn hk' hs' id).fenced rfl (hc (i + k) (by omega) (by omega))
      (h.led hk hs hled (by omega)) hg₁
    refine ⟨g₂, hg₂, hf.trans hf₂, fun he hne => ?_⟩
    by_cases hm : membersOf ((ws (i + k)).rooms id) = []
    · exact Nat.lt_of_le_of_lt hf.grows (hin₂ hm hne)
    · exact Nat.lt_of_lt_of_le (hin he hm) hf₂.grows

end Path

namespace Server

omit [Extern] in
theorem boot_led (config : Config) (store : Store) (push : Bool) (id : String) :
    ∀ r, (boot config store push).world.rooms id = some r → r.Led := fun _ hr => nomatch hr

end Server
end Relay
