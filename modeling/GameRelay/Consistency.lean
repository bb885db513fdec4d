import GameRelay.Seats
import GameRelay.Trace
/-!
# Consistency — who sits where, and on which connection

Membership is kept twice, as a room's active set and as an account's room; the binding of a connection too.
`World.Consistent` says, beside `World.Seated`, that the two sides agree, that an account has one open connection at most,
and that an empty live room is a persistent one.  Every act keeps it but one: a stored account brought back over the online account of the
same identifier, which a spelling of the key that memory does not know can do (`Server.Displaces`).
-/
namespace Relay

open Function (update)

/-- The two sides of membership and binding agree; `x` may sit in a room while it has no connection. -/
structure World.ConsistentBut (x : Option String) (w : World) : Prop where
  active : ∀ {id r p}, w.rooms id = some r → p ∈ r.active → ∃ q, w.seats p = some q ∧ q.room = some id
  linked : ∀ {p q cid}, w.seats p = some q → q.connection = some cid → ∃ l, w.links cid = some l ∧ l.player = some p
  offline : ∀ {p q}, some p ≠ x → w.seats p = some q → q.connection = none → q.room = none
  current : ∀ {cid l p}, w.links cid = some l → l.player = some p → l.closing = false →
    ∃ q, w.seats p = some q ∧ q.connection = some cid
  empty : ∀ {id r}, w.rooms id = some r → r.active.isEmpty = true → r.persistent = true

abbrev World.Consistent (w : World) : Prop := w.ConsistentBut none

theorem World.Consistent.but {w : World} (h : w.Consistent) (x : Option String) : w.ConsistentBut x :=
  ⟨h.active, h.linked, fun _ => h.offline (by intro hn; cases hn), h.current, h.empty⟩

theorem World.Sent.consistent {w w' : World} (h : w.Sent w') (hw : w.Consistent) : w'.Consistent := by
  obtain ⟨l, q, hk, -, rfl⟩ := h
  refine ⟨hw.active, fun hp hc => ?_, hw.offline, fun hl hp hc => ?_, hw.empty⟩
  · obtain ⟨a, ha, hap⟩ := hw.linked hp hc
    obtain ⟨b, hb, hab⟩ := hk.get ha
    exact ⟨b, hb, hab.player.trans hap⟩
  · obtain ⟨a, ha, hab⟩ := hk.get' hl
    refine hw.current ha (hab.player.symm.trans hp) ?_
    by_contra hac
    rw [Bool.not_eq_false] at hac
    rw [hab.closing hac] at hc
    cases hc

/-! Leaving. -/

/-- **Leaving mends the one account that may sit without a connection.** -/
theorem World.Left.consistent {p : String} {d : Bool} {w w' : World} (h : w.Left p d w') (hs : w.Seated)
    (hw : w.ConsistentBut (some p)) : w'.Consistent := by
  have hlinks : w'.links = w.links := h.frame.2.2
  -- what released accounts keep of their connection
  have conn : ∀ {ids x q'}, releaseAll w.seats ids x = some q' → ∃ q, w.seats x = some q ∧ q.connection = q'.connection ∧
      (x ∈ ids → q'.room = none) ∧ (x ∉ ids → q' = q) := by
    intro ids x q' hx
    rcases releaseAll_some hx with ⟨hn, hq⟩ | ⟨hm, q, hq, rfl⟩
    · exact ⟨q', hq, rfl, fun h => absurd h hn, fun _ => rfl⟩
    · exact ⟨q, hq, rfl, fun _ => rfl, fun h => absurd hm h⟩
  have seat : ∀ ids {x q}, w.seats x = some q → ∃ q', releaseAll w.seats ids x = some q' ∧
      q'.connection = q.connection ∧ (x ∉ ids → q' = q) := by
    intro ids x q hx
    unfold releaseAll
    rw [hx]
    split
    · rename_i hm; exact ⟨_, rfl, rfl, fun h => absurd hm h⟩
    · exact ⟨q, rfl, rfl, fun _ => rfl⟩
  have linked : ∀ {ids x q' cid}, releaseAll w.seats ids x = some q' → q'.connection = some cid →
      ∃ l, w.links cid = some l ∧ l.player = some x := by
    intro ids x q' cid hx hc
    obtain ⟨q, hq, hqc, -, -⟩ := conn hx
    exact hw.linked hq (hqc.trans hc)
  have offline : ∀ {ids x q'}, p ∈ ids → releaseAll w.seats ids x = some q' → q'.connection = none → q'.room = none := by
    intro ids x q' hp hx hc
    obtain ⟨q, hq, hqc, hin, hout⟩ := conn hx
    by_cases hm : x ∈ ids
    · exact hin hm
    · rw [hout hm]
      exact hw.offline (fun h => hm (by rw [Option.some.inj h]; exact hp)) hq (hqc.trans hc)
  have current : ∀ {ids cid l x}, w.links cid = some l → l.player = some x → l.closing = false →
      ∃ q, releaseAll w.seats ids x = some q ∧ q.connection = some cid := by
    intro ids cid l x hl hp hc
    obtain ⟨q, hq, hqc⟩ := hw.current hl hp hc
    obtain ⟨q', hq', hqc', -⟩ := seat ids hq
    exact ⟨q', hq', hqc'.trans hqc⟩
  cases h.shape with
  | nowhere hq hr hseats hrooms =>
    rename_i q
    have hroom : q.room = none := by
      cases hid : q.room with
      | none => rfl
      | some id =>
        obtain ⟨r₀, hr₀, -⟩ := hs hq hid
        obtain ⟨r, hr', -⟩ := dropSeats_of (p := p) d hr₀
        rw [hid, Option.bind_some, hr'] at hr
        cases hr
    refine ⟨fun {id r x} hr hx => ?_, ?_, ?_, ?_, fun {id r} hr he => ?_⟩
    · rw [hrooms] at hr
      obtain ⟨r₀, hr₀, ha, -⟩ := dropSeats_active hr
      rw [ha] at hx
      obtain ⟨q₀, hq₀, hid⟩ := hw.active hr₀ hx
      have hne : x ∉ [p] := by
        rw [List.mem_singleton]
        rintro rfl
        rw [hq] at hq₀; cases hq₀
        rw [hroom] at hid; cases hid
      obtain ⟨q', hq', -, hout⟩ := seat [p] hq₀
      exact ⟨q', by rw [hseats]; exact hq', by rw [hout hne]; exact hid⟩
    · intro x q' cid hx hc; rw [hseats] at hx; rw [hlinks]; exact linked hx hc
    · intro x q' _ hx hc; rw [hseats] at hx; exact offline (List.mem_singleton_self p) hx hc
    · intro cid l x hl hp hc; rw [hlinks] at hl; rw [hseats]; exact current hl hp hc
    · rw [hrooms] at hr
      obtain ⟨r₀, hr₀, ha, hp⟩ := dropSeats_active hr
      rw [ha] at he
      rw [hp]
      exact hw.empty hr₀ he
  | room hq hid hr hseats hrooms hnone hsome =>
    rename_i q id r o
    obtain ⟨r₀, hr₀, hact, hpers⟩ := dropSeats_active hr
    have hpin : p ∈ released r p d := List.mem_cons_self ..
    -- a released account sat in this room
    have hrel : ∀ {x q'}, x ∈ released r p d → w.seats x = some q' → q'.room = some id := by
      intro x q' hx hq'
      rcases mem_released hx with rfl | hmem
      · rw [hq] at hq'; cases hq'; exact hid
      · rw [hact] at hmem
        obtain ⟨q'', hq'', hroom⟩ := hw.active hr₀ hmem
        rw [hq'] at hq''; cases hq''; exact hroom
    refine ⟨fun {id' r' x} hr' hx => ?_, ?_, ?_, ?_, fun {id' r'} hr' he => ?_⟩
    · rw [hrooms] at hr'
      rw [hseats]
      rcases update_some hr' with ⟨rfl, ho⟩ | ⟨hne, hr'⟩
      · rw [(hsome r' ho).1, mem_remains, hact] at hx
        obtain ⟨q₀, hq₀, hroom⟩ := hw.active hr₀ hx.1
        obtain ⟨q', hq', -, hout⟩ := seat (released r p d) hq₀
        exact ⟨q', hq', by rw [hout hx.2]; exact hroom⟩
      · obtain ⟨r₁, hr₁, ha₁, -⟩ := dropSeats_active hr'
        rw [ha₁] at hx
        obtain ⟨q₀, hq₀, hroom⟩ := hw.active hr₁ hx
        have hm : x ∉ released r p d := fun hm => hne (by rw [hrel hm hq₀] at hroom; exact (Option.some.inj hroom).symm)
        obtain ⟨q', hq', -, hout⟩ := seat (released r p d) hq₀
        exact ⟨q', hq', by rw [hout hm]; exact hroom⟩
    · intro x q' cid hx hc; rw [hseats] at hx; rw [hlinks]; exact linked hx hc
    · intro x q' _ hx hc; rw [hseats] at hx; exact offline hpin hx hc
    · intro cid l x hl hp hc; rw [hlinks] at hl; rw [hseats]; exact current hl hp hc
    · rw [hrooms] at hr'
      rcases update_some hr' with ⟨rfl, ho⟩ | ⟨-, hr'⟩
      · exact (hsome r' ho).2.2 he
      · obtain ⟨r₁, hr₁, ha₁, hp₁⟩ := dropSeats_active hr'
        rw [ha₁] at he
        rw [hp₁]
        exact hw.empty hr₁ he

/-! The other acts. -/

/-- An account takes a place in a room that was live, or that nobody sat in. -/
theorem World.Consistent.enter {w : World} (hw : w.Consistent) {p id : String} {q : Seat} {r r' : Room}
    (hq : w.seats p = some q) (hc : q.connection.isSome) (hr : q.room = none)
    (hlive : w.rooms id = some r ∨ (w.rooms id = none ∧ r.active = IndexSet.empty))
    (hact : ∀ x, x ∈ r'.active ↔ x = p ∨ x ∈ r.active) (es : List Event) :
    World.Consistent
      { w with seats := w.enterSeat p id q, rooms := update w.rooms id (some r'), history := w.history ++ es } := by
  have hmem : p ∈ r'.active := (hact p).2 (.inl rfl)
  refine ⟨fun {id' r₁ x} hr₁ hx => ?_, ?_, fun {x q'} _ hx hc' => ?_, ?_, fun {id' r₁} hr₁ he => ?_⟩
  · rcases update_some hr₁ with ⟨rfl, h⟩ | ⟨hne, h⟩
    · cases h
      rcases (hact x).1 hx with rfl | hm
      · exact ⟨_, Function.update_self .., rfl⟩
      · rcases hlive with hl | ⟨-, hl⟩
        · obtain ⟨q₀, hq₀, hid⟩ := hw.active hl hm
          refine ⟨q₀, ?_, hid⟩
          have hne : x ≠ p := fun h => by rw [h, hq] at hq₀; cases hq₀; rw [hr] at hid; cases hid
          show update w.seats p _ x = _
          rw [Function.update_of_ne hne]; exact hq₀
        · rw [hl] at hm; exact absurd hm IndexSet.mem_empty
    · obtain ⟨q₀, hq₀, hid⟩ := hw.active h hx
      refine ⟨q₀, ?_, hid⟩
      have hne' : x ≠ p := fun h => by rw [h, hq] at hq₀; cases hq₀; rw [hr] at hid; cases hid
      show update w.seats p _ x = _
      rw [Function.update_of_ne hne']; exact hq₀
  · intro x q' cid hx hc'
    rcases update_some hx with ⟨rfl, h⟩ | ⟨-, h⟩
    · cases h; exact hw.linked hq hc'
    · exact hw.linked h hc'
  · rcases update_some hx with ⟨rfl, h⟩ | ⟨-, h⟩
    · cases h
      rw [show q.connection = none from hc'] at hc; cases hc
    · exact hw.offline (by intro hn; cases hn) h hc'
  · intro cid l x hl hp hcl
    obtain ⟨q₀, hq₀, hqc⟩ := hw.current hl hp hcl
    by_cases hx : x = p
    · subst hx
      rw [hq] at hq₀; cases hq₀
      exact ⟨_, Function.update_self .., hqc⟩
    · exact ⟨q₀, by show update w.seats p _ x = _; rw [Function.update_of_ne hx]; exact hq₀, hqc⟩
  · rcases update_some hr₁ with ⟨rfl, h⟩ | ⟨-, h⟩
    · cases h
      exact absurd hmem (IndexSet.isEmpty_iff.1 he p)
    · exact hw.empty h he

/-- A live room changes, but not who is active in it. -/
theorem World.Consistent.edit {w : World} (hw : w.Consistent) {id : String} {r r' : Room} (hr : w.rooms id = some r)
    (hact : r'.active = r.active) (hemp : r'.active.isEmpty = true → r'.persistent = true) :
    ∀ {w' : World}, w'.seats = w.seats → w'.links = w.links → w'.rooms = update w.rooms id (some r') →
      w'.Consistent := by
  intro w' hs hl hrooms
  refine ⟨fun {id' r₁ x} hr₁ hx => ?_, ?_, ?_, ?_, fun {id' r₁} hr₁ he => ?_⟩
  · rw [hrooms] at hr₁
    rw [hs]
    rcases update_some hr₁ with ⟨rfl, h⟩ | ⟨-, h⟩
    · cases h; rw [hact] at hx; exact hw.active hr hx
    · exact hw.active h hx
  · intro x q' cid hx hc; rw [hs] at hx; rw [hl]; exact hw.linked hx hc
  · intro x q' hn hx hc; rw [hs] at hx; exact hw.offline hn hx hc
  · intro cid l x hlk hp hc; rw [hl] at hlk; rw [hs]; exact hw.current hlk hp hc
  · rw [hrooms] at hr₁
    rcases update_some hr₁ with ⟨rfl, h⟩ | ⟨-, h⟩
    · cases h; exact hemp he
    · exact hw.empty h he

/-- Rooms that change only in what is neither membership nor persistence. -/
theorem World.Consistent.mapRooms {w : World} (hw : w.Consistent) {f : Room → Room}
    (hf : ∀ r, (f r).active = r.active ∧ (f r).persistent = r.persistent) :
    World.Consistent { w with rooms := fun x => (w.rooms x).map f } := by
  refine ⟨fun {id' r₁ x} hr₁ hx => ?_, hw.linked, hw.offline, hw.current, fun {id' r₁} hr₁ he => ?_⟩
  · obtain ⟨r₀, hr₀, rfl⟩ := Option.map_eq_some_iff.1 hr₁
    rw [(hf r₀).1] at hx
    exact hw.active hr₀ hx
  · obtain ⟨r₀, hr₀, rfl⟩ := Option.map_eq_some_iff.1 hr₁
    rw [(hf r₀).1] at he
    rw [(hf r₀).2]
    exact hw.empty hr₀ he

/-- A room goes. -/
theorem World.Consistent.unload {w : World} (hw : w.Consistent) {id : String} : ∀ {w' : World}, w'.seats = w.seats →
    w'.links = w.links → w'.rooms = update w.rooms id none → w'.Consistent := by
  intro w' hs hl hrooms
  refine ⟨fun {id' r₁ x} hr₁ hx => ?_, ?_, ?_, ?_, fun {id' r₁} hr₁ he => ?_⟩
  · rw [hrooms] at hr₁
    rw [hs]
    rcases update_some hr₁ with ⟨-, h⟩ | ⟨-, h⟩
    · cases h
    · exact hw.active h hx
  · intro x q' cid hx hc; rw [hs] at hx; rw [hl]; exact hw.linked hx hc
  · intro x q' hn hx hc; rw [hs] at hx; exact hw.offline hn hx hc
  · intro cid l x hlk hp hc; rw [hl] at hlk; rw [hs]; exact hw.current hlk hp hc
  · rw [hrooms] at hr₁
    rcases update_some hr₁ with ⟨-, h⟩ | ⟨-, h⟩
    · cases h
    · exact hw.empty h he

/-- A connection becomes an account's current one: the account had none open but this, and sits where it sat. -/
theorem World.Consistent.bind {w : World} (hw : w.Consistent) {cid : Nat} {id : String} {l : Link} {old : Option Nat}
    {q' : Seat} (hl : w.links cid = some l) (hp : l.player = none) (hq' : q'.connection = some cid)
    (hold : ∀ q, w.seats id = some q → q.connection = old ∧ q'.room = q.room) :
    World.Consistent { w with
      seats := update w.seats id (some q')
      links := update (closeLink w.links old) cid (some { l with player := some id }) } := by
  -- a link of another account, or a closed one of this
  have hlink : ∀ {c a x}, w.links c = some a → a.player = some x → c ≠ cid := fun {c a x} ha hx h => by
    rw [h, hl] at ha; cases ha; rw [hp] at hx; cases hx
  refine ⟨fun {id' r x} hr hx => ?_, fun {x q c} hx hc => ?_, fun {x q} _ hx hc => ?_,
    fun {c a x} ha hx hcl => ?_, hw.empty⟩
  · obtain ⟨q, hq, hroom⟩ := hw.active hr hx
    by_cases hxi : x = id
    · subst hxi
      exact ⟨q', Function.update_self .., by rw [(hold q hq).2]; exact hroom⟩
    · exact ⟨q, by show update w.seats id _ x = _; rw [Function.update_of_ne hxi]; exact hq, hroom⟩
  · rcases update_some hx with ⟨rfl, h⟩ | ⟨hne, h⟩
    · cases h
      rw [hq'] at hc; cases hc
      exact ⟨_, Function.update_self .., rfl⟩
    · obtain ⟨a, ha, hap⟩ := hw.linked h hc
      have hcc := hlink ha hap
      show ∃ l', update (closeLink w.links old) cid _ c = some l' ∧ _
      rw [Function.update_of_ne hcc]
      unfold closeLink
      rw [ha]
      split
      · exact ⟨_, rfl, hap⟩
      · exact ⟨a, rfl, hap⟩
  · rcases update_some hx with ⟨rfl, h⟩ | ⟨-, h⟩
    · cases h; rw [hq'] at hc; cases hc
    · exact hw.offline (by intro hn; cases hn) h hc
  · rcases update_some ha with ⟨rfl, h⟩ | ⟨hne, h⟩
    · cases h
      cases hx
      exact ⟨q', Function.update_self .., hq'⟩
    · unfold closeLink at h
      split at h
      · obtain ⟨a₀, ha₀, rfl⟩ := Option.map_eq_some_iff.1 h
        cases hcl
      · rename_i hno
        obtain ⟨q, hq, hqc⟩ := hw.current h hx hcl
        by_cases hxi : x = id
        · subst hxi
          rw [(hold q hq).1] at hqc
          exact absurd hqc hno
        · exact ⟨q, by show update w.seats id _ x = _; rw [Function.update_of_ne hxi]; exact hq, hqc⟩

/-- Closing a link that is closing already, or none. -/
theorem closeLink_closing {links : Nat → Option Link} {old : Option Nat}
    (h : ∀ c l, old = some c → links c = some l → l.closing = true) : closeLink links old = links := by
  funext c
  unfold closeLink
  split
  · rename_i hc
    cases hl : links c with
    | none => rfl
    | some l => rw [Option.map_some, ← h c l hc hl]
  · rfl

variable [Extern]

/-- **Every act keeps the world consistent**, unless it brings a stored account back over an online one. -/
theorem Effect.consistent {a : Act} {w w' : World} (h : Effect a w w')
    (hg : ∀ cid id q, a = .recalled cid id → w.seats id = some q →
      q.room = none ∧ ∀ c l, q.connection = some c → w.links c = some l → l.closing = true)
    (hseats : w.Seated) (hw : w.Consistent) : w'.Consistent := by
  have sitting : ∀ {p id r}, w.Sits p id r → ∀ {r' : Room}, r'.active = r.active →
      (r'.active.isEmpty = true → r'.persistent = true) := by
    intro p id r hsit r' ha he
    rw [ha] at he
    exact absurd (hseats.mem hsit) (IndexSet.isEmpty_iff.1 he p)
  cases h with
  | idle => exact hw
  | connected h =>
    rename_i cid
    refine ⟨hw.active, fun {p q c} hx hc => ?_, hw.offline, fun hl hp hc => ?_, hw.empty⟩
    · obtain ⟨a, ha, hap⟩ := hw.linked hx hc
      have hne : c ≠ cid := by rintro rfl; rw [h] at ha; cases ha
      exact ⟨a, by show update w.links _ _ _ = _; rw [Function.update_of_ne hne]; exact ha, hap⟩
    · rcases update_some hl with ⟨-, he⟩ | ⟨-, he⟩
      · cases he; cases hp
      · exact hw.current he hp hc
  | unlinked hl hq =>
    rename_i cid l
    refine ⟨hw.active, fun {p q c} hx hc => ?_, hw.offline, fun hl hp hc => ?_, hw.empty⟩
    · obtain ⟨a, ha, hap⟩ := hw.linked hx hc
      have hne : c ≠ cid := by
        rintro rfl
        rw [hl] at ha; cases ha
        exact hq p q hap hx hc
      exact ⟨a, by show update w.links _ _ _ = _; rw [Function.update_of_ne hne]; exact ha, hap⟩
    · rcases update_some hl with ⟨-, he⟩ | ⟨-, he⟩
      · cases he
      · exact hw.current he hp hc
  | gone hl hp hq hc h =>
    rename_i cid l p q
    have hseated : World.Seated { w with
        seats := update w.seats p (some { q with connection := none }), links := update w.links cid none } :=
      hseats.seat (fun _ _ he hid => ⟨q, hq, by cases he; exact hid⟩) rfl rfl
    refine h.consistent hseated ⟨fun {id r x} hr hx => ?_, fun {x q' c} hx hc' => ?_,
      fun {x q'} hne hx hc' => ?_, fun {c a x} ha hap hac => ?_, hw.empty⟩
    · obtain ⟨q₀, hq₀, hid⟩ := hw.active hr hx
      by_cases hxp : x = p
      · subst hxp
        rw [hq] at hq₀; cases hq₀
        exact ⟨_, Function.update_self .., hid⟩
      · exact ⟨q₀, by show update w.seats _ _ _ = _; rw [Function.update_of_ne hxp]; exact hq₀, hid⟩
    · rcases update_some hx with ⟨rfl, he⟩ | ⟨hne, he⟩
      · cases he; cases hc'
      · obtain ⟨a, ha, hap⟩ := hw.linked he hc'
        have hcc : c ≠ cid := by
          rintro rfl
          rw [hl] at ha; cases ha
          rw [hp] at hap; cases hap
          exact hne rfl
        exact ⟨a, by show update w.links _ _ _ = _; rw [Function.update_of_ne hcc]; exact ha, hap⟩
    · rcases update_some hx with ⟨rfl, he⟩ | ⟨-, he⟩
      · exact absurd rfl hne
      · exact hw.offline (by intro hn; cases hn) he hc'
    · rcases update_some ha with ⟨-, he⟩ | ⟨hne, he⟩
      · cases he
      · obtain ⟨q₀, hq₀, hqc⟩ := hw.current he hap hac
        have hxp : x ≠ p := by
          rintro rfl
          rw [hq] at hq₀; cases hq₀
          rw [hc] at hqc
          exact hne (Option.some.inj hqc).symm
        exact ⟨q₀, by show update w.seats _ _ _ = _; rw [Function.update_of_ne hxp]; exact hq₀, hqc⟩
  | queued hd => exact ⟨hw.active, hw.linked, hw.offline, hw.current, hw.empty⟩
  | expired hq hc hf =>
    rename_i id q
    have hroom : q.room = none := hw.offline (by intro hn; cases hn) hq hc
    have hrooms := hw.mapRooms (f := Room.dropReservation id) (fun _ => ⟨rfl, rfl⟩)
    refine ⟨fun {id' r x} hr hx => ?_, fun {x q' c} hx hc' => ?_, fun {x q'} hn hx hc' => ?_,
      fun {c a x} ha hap hac => ?_, hrooms.empty⟩
    · obtain ⟨q₀, hq₀, hid⟩ := hrooms.active hr hx
      have hne : x ≠ id := by
        rintro rfl
        rw [show w.seats x = some q₀ from hq₀] at hq; cases hq
        rw [hroom] at hid; cases hid
      exact ⟨q₀, by show update w.seats _ _ _ = _; rw [Function.update_of_ne hne]; exact hq₀, hid⟩
    · rcases update_some hx with ⟨-, he⟩ | ⟨-, he⟩
      · cases he
      · exact hw.linked he hc'
    · rcases update_some hx with ⟨-, he⟩ | ⟨-, he⟩
      · cases he
      · exact hw.offline hn he hc'
    · obtain ⟨q₀, hq₀, hqc⟩ := hw.current ha hap hac
      have hne : x ≠ id := by
        rintro rfl
        rw [hq] at hq₀; cases hq₀
        rw [hc] at hqc; cases hqc
      exact ⟨q₀, by show update w.seats _ _ _ = _; rw [Function.update_of_ne hne]; exact hq₀, hqc⟩
  | bound hl hp hq =>
    refine hw.bind hl hp rfl (fun q' hq' => ?_)
    rw [hq] at hq'; cases hq'
    exact ⟨rfl, rfl⟩
  | recalled hl hp =>
    rename_i cid id pw l
    -- what the account in memory had, if there is one, is no room and no open connection
    have hold : ∀ q, w.seats id = some q → q.connection = (w.seats id).bind (·.connection) ∧ none = q.room :=
      fun q hq => ⟨by rw [hq]; rfl, (hg cid id q rfl hq).1.symm⟩
    have hb := hw.bind hl hp (rfl : (Seat.mk id (some cid) none pw).connection = some cid) hold
    rw [closeLink_closing (fun c l' hc hl' => ?_)] at hb
    · exact hb
    · obtain ⟨q, hq, hqc⟩ := Option.bind_eq_some_iff.1 hc
      exact (hg cid id q rfl hq).2 c l' hqc hl'
  | rekeyed hl hu =>
    rename_i cid p v l u
    refine ⟨hw.active, fun {p' q c} hx hc => ?_, hw.offline, fun {c l' p'} hl' hp' hc => ?_, hw.empty⟩
    · obtain ⟨a, ha, hap⟩ := hw.linked hx hc
      by_cases hne : c = cid
      · subst hne
        rw [hl] at ha; cases ha
        exact ⟨_, Function.update_self .., hap⟩
      · exact ⟨a, by show update w.links _ _ _ = _; rw [Function.update_of_ne hne]; exact ha, hap⟩
    · rcases update_some hl' with ⟨rfl, he⟩ | ⟨-, he⟩
      · cases he; exact hw.current hl hp' hc
      · exact hw.current he hp' hc
  | departed h => exact h.consistent hseats (hw.but _)
  | left h => exact h.consistent hseats (hw.but _)
  | entered hq hc hr hf he =>
    refine hw.enter hq hc hr ?_ (fun x => joined_mem) _
    rcases hf with ⟨-, hr⟩ | ⟨-, hn, now, hd, st, -, -, -, rfl⟩
    · exact .inl hr
    · exact .inr ⟨hn, rfl⟩
  | refused hm hid hpw hq hroom hr ha hp he => exact hw.unload rfl rfl rfl
  | created hq hc hr hid hfile hhist hlow hroom hmax hfit =>
    exact hw.enter hq hc hr (.inr ⟨hid, by rw [hroom]; rfl⟩) (fun x => joined_mem) _
  | edited hs he => exact hw.edit hs.2 he.active_eq (sitting hs he.active_eq) rfl rfl rfl
  | wrote hs hp hb hu hid hst =>
    refine hw.edit hs.2 ?_ ?_ rfl rfl rfl
    · rfl
    · exact fun _ => hp
  | rejected hs hp hb hu hid hst =>
    refine hw.edit hs.2 ?_ ?_ rfl rfl rfl
    · rfl
    · exact fun _ => hp
  | timedOut =>
    refine hw.mapRooms (fun r => ?_)
    unfold Server.timeoutUpload; split <;> exact ⟨rfl, rfl⟩
  | slept hr hp ha h =>
    cases h
    exact hw.unload rfl rfl rfl

namespace Server

/-- **The tables of the server agree.** -/
structure Consistent (s : Server) : Prop where
  member : ∀ {id r p}, s.rooms.get id = some r →
    (p ∈ r.active ↔ ∃ q, s.players.get p = some q ∧ q.room = some r.id)
  one_room : ∀ {id id' r r' p}, s.rooms.get id = some r → s.rooms.get id' = some r' → p ∈ r.active → p ∈ r'.active →
    id = id'
  bound : ∀ {p q cid}, s.players.get p = some q → q.connection = some cid →
    ∃ c, s.connections.get cid = some c ∧ c.player = some p
  offline : ∀ {p q}, s.players.get p = some q → q.connection = none → q.room = none
  one_open : ∀ {p cid cid' c c'}, s.connections.get cid = some c → s.connections.get cid' = some c' →
    c.player = some p → c'.player = some p → c.closing = false → c'.closing = false → cid = cid'
  empty : ∀ {id r}, s.rooms.get id = some r → r.active.isEmpty = true → r.persistent = true
  drained : s.connections.size = 0 → ∀ {id r}, s.rooms.get id = some r → r.persistent = true

omit [Extern] in
theorem seats_some {s : Server} {p : String} {q : Seat} (h : s.world.seats p = some q) :
    ∃ pl, s.players.get p = some pl ∧ pl.seat = q := Option.map_eq_some_iff.1 h

omit [Extern] in
theorem links_some {s : Server} {cid : Nat} {l : Link} (h : s.world.links cid = some l) :
    ∃ c, s.connections.get cid = some c ∧ c.link = l := Option.map_eq_some_iff.1 h

omit [Extern] in
/-- **A consistent world is a consistent server.** -/
theorem consistent_of_world {s : Server} (hk : s.world.Keyed) (hseats : s.world.Seated) (hw : s.world.Consistent) :
    s.Consistent := by
  have key : ∀ {id r}, s.rooms.get id = some r → r.id = id := fun h => (hk.rooms h :)
  have member : ∀ {id r p}, s.rooms.get id = some r →
      (p ∈ r.active ↔ ∃ q, s.players.get p = some q ∧ q.room = some r.id) := by
    intro id r p hr
    rw [key hr]
    constructor
    · intro hp
      obtain ⟨q, hq, hid⟩ := hw.active hr hp
      obtain ⟨pl, hpl, rfl⟩ := seats_some hq
      exact ⟨pl, hpl, hid⟩
    · rintro ⟨pl, hpl, hid⟩
      obtain ⟨r', hr', hp⟩ := hseats (seats_eq hpl) hid
      rw [show s.world.rooms id = some r from hr] at hr'
      cases hr'
      exact hp
  have bound : ∀ {p q cid}, s.players.get p = some q → q.connection = some cid →
      ∃ c, s.connections.get cid = some c ∧ c.player = some p := by
    intro p q cid hq hc
    obtain ⟨l, hl, hlp⟩ := hw.linked (seats_eq hq) hc
    obtain ⟨c, hc', rfl⟩ := links_some hl
    exact ⟨c, hc', hlp⟩
  have offline : ∀ {p q}, s.players.get p = some q → q.connection = none → q.room = none :=
    fun hq hc => hw.offline (by intro h; cases h) (seats_eq hq) hc
  refine ⟨member, fun hr hr' hp hp' => ?_, bound, offline, fun hc hc' hp hp' ho ho' => ?_, hw.empty, fun hn {id r} hr => ?_⟩
  · obtain ⟨q, hq, hid⟩ := (member hr).1 hp
    obtain ⟨q', hq', hid'⟩ := (member hr').1 hp'
    rw [hq] at hq'; cases hq'
    rw [hid] at hid'
    rw [← key hr, ← key hr']
    exact Option.some.inj hid'
  · obtain ⟨q, hq, hqc⟩ := hw.current (links_get hc) hp ho
    obtain ⟨q', hq', hqc'⟩ := hw.current (links_get hc') hp' ho'
    rw [hq] at hq'; cases hq'
    rw [hqc] at hqc'
    exact Option.some.inj hqc'
  · -- with nobody connected, nobody sits in the room
    refine hw.empty hr (IndexSet.isEmpty_iff.2 (fun p hp => ?_))
    obtain ⟨q, hq, hid⟩ := (member hr).1 hp
    cases hc : q.connection with
    | none => rw [offline hq hc] at hid; cases hid
    | some cid =>
      obtain ⟨c, hcon, -⟩ := bound hq hc
      have hmem := IndexMap.mem_entries.2 hcon
      rw [List.eq_nil_of_length_eq_zero hn] at hmem
      cases hmem

/-- **The step brings a stored account back over the account in memory** of the same identifier, which sits in a room or
has an open connection. -/
def Displaces (env : Env) (s : Server) (c : Command) : Prop :=
  ∃ t cid d p q, s.Authenticates env c t cid d ∧ (t.expire env.now).Recalls env d p ∧
    (t.expire env.now).players.get p.id = some q ∧
    (q.room ≠ none ∨ ∃ old k, q.connection = some old ∧ (t.expire env.now).connections.get old = some k ∧
      k.closing = false)

omit [Extern] in
theorem boot_consistent (config : Config) (store : Store) (push : Bool) : (boot config store push).world.Consistent :=
  ⟨(fun h => nomatch h), (fun h => nomatch h), (fun _ h => nomatch h), (fun h => nomatch h), (fun h => nomatch h)⟩

/-- **Unless a step displaces an account, every reachable state is consistent.** -/
theorem consistent_of_no_displacement {config : Config} {store : Store} {push : Bool} {s : Server}
    (h : Run (fun env s c => ¬ s.Displaces env c) (boot config store push) s) : s.Consistent := by
  have hb := boot_base config store push
  have hw : s.world.Seated ∧ s.world.Consistent := Run.invariant (I := fun w => w.Seated ∧ w.Consistent) ?_ h hb
    ⟨boot_seated config store push, boot_consistent config store push⟩
  · exact consistent_of_world (Run.base h hb).keyed hw.1 hw.2
  rintro env s c a w w' hg hd - ⟨w₁, he, hsent⟩ hw
  refine ⟨hsent.seated (he.seated hw.1), hsent.consistent (he.consistent (fun cid id q ha hq => ?_) hw.1 hw.2)⟩
  subst ha
  cases hd with
  | created hauth hanon hnew hn => rw [hn] at hq; cases hq
  | recalled hauth hp =>
    rename_i t d p
    obtain ⟨pl, hpl, rfl⟩ := seats_some hq
    by_contra hno
    refine hg ⟨t, cid, d, p, pl, hauth, hp, hpl, ?_⟩
    by_cases hroom : pl.room = none
    · refine .inr ?_
      by_contra hopen
      refine hno ⟨hroom, fun c l hc hl => ?_⟩
      obtain ⟨k, hk, rfl⟩ := links_some hl
      by_contra hcl
      exact hopen ⟨c, k, hc, hk, eq_false_of_ne_true hcl⟩
    · exact .inl hroom

/-! Coming back under another spelling of the account's identifier. -/

/-- Without a session directory there is no stored account to bring back. -/
theorem not_displaces_of_disabled {env : Env} {s : Server} {c : Command} (h : s.store.enabled = false) :
    ¬ s.Displaces env c := by
  rintro ⟨t, cid, d, p, q, ⟨⟩, hp, -⟩
  exact not_recalls_of_disabled (show (s.setConnection _ _).store.enabled = false from h) hp

/-- The first account's identifier in capitals, and its password. -/
def comeBack : Value := message "authenticate"
  [("playerId", .str "ABCDEF01-2345-4000-8000-000000000000"), ("password", .str "secret-0")]

omit [Extern] in
theorem consistent_of_no_displacement_opening : letI := Extern.reading [Trace.signUp, Trace.createRoom]
    ∃ s, Run (fun env s c => ¬ s.Displaces env c) (boot .default { Store.empty with enabled := false } false) s ∧
      s.rooms.size = 1 ∧ s.Consistent := by
  let _ := Extern.reading [Trace.signUp, Trace.createRoom]
  have h : (exec (fun _ s _ => !s.store.enabled) Trace.opening
      (boot .default { Store.empty with enabled := false } false)).any (fun s => decide (s.rooms.size = 1)) = true := by
    decide +kernel
  obtain ⟨s, hs, hr⟩ := (Option.any_eq_true _ _).1 h
  have hrun := exec_run (G := fun env s c => ¬ s.Displaces env c)
    (fun _ _ _ h => not_displaces_of_disabled (by simpa using h)) hs
  exact ⟨s, hrun, of_decide_eq_true hr, consistent_of_no_displacement hrun⟩

omit [Extern] in
/-- **An account that authenticates in capitals stays in its room's active set, and in no room.** -/
theorem reauthentication_not_consistent : letI := Extern.reading [Trace.signUp, Trace.createRoom, comeBack]
    ∃ s, Run (fun _ _ _ => True) (boot .default Store.empty false) s ∧ ¬ s.Consistent := by
  let _ := Extern.reading [Trace.signUp, Trace.createRoom, comeBack]
  have h : (exec (fun _ _ _ => true) (Trace.opening ++
      [(.plain 2, .connected 2), (.plain 2, .tells 2 comeBack)]) (boot .default Store.empty false)).any (fun s =>
      s.rooms.entries.any (fun e => e.2.active.items.any (fun p =>
        (s.players.get p).any (fun q => q.room.isNone)))) = true := by
    decide +kernel
  obtain ⟨s, hs, hbad⟩ := (Option.any_eq_true _ _).1 h
  refine ⟨s, exec_run (fun _ _ _ _ => trivial) hs, fun hc => ?_⟩
  obtain ⟨e, he, hbad⟩ := List.any_eq_true.1 hbad
  obtain ⟨p, hp, hbad⟩ := List.any_eq_true.1 hbad
  obtain ⟨q, hq, hroom⟩ := (Option.any_eq_true _ _).1 hbad
  obtain ⟨q', hq', hid⟩ := (hc.member (IndexMap.mem_entries.1 he)).1 hp
  rw [hq] at hq'; cases hq'
  rw [Option.isNone_iff_eq_none.1 hroom] at hid
  cases hid

end Server
end Relay
