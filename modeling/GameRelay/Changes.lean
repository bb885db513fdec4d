import GameRelay.Turns
/-!
# Changes — what an act does to a live room

`Change` is the part of a turn that the live room sees, without files, job lists and histories: what holds of every
live room is read off it.  `Path` is a run act by act, so that a statement can speak of what happened in between.
-/
namespace Relay

open Function (update)

variable [Extern]

inductive Change (w : World) (id : String) (a : Act) : Option Room → Option Room → Prop
  | same (o : Option Room) : Change w id a o o
  | gone (o : Option Room) : Change w id a o none
  | unseated {r : Room} (p : String) : Change w id a (some r) (some (r.dropReservation p))
  | timedOut {r : Room} {now : Nat} (ha : a = .timedOut now) : Change w id a (some r) (some (Server.timeoutUpload now r))
  | kept {r₀ r : Room} {p : String} {d : Bool} (ha : a.actor = some p) (hr : dropSeat (some r₀) p d = some r)
      (he : (remains r p d).active.isEmpty = true) (hp : r.persistent = true) :
      Change w id a (some r₀) (some (remains r p d))
  | stayed {r₀ r : Room} {p first : String} {d : Bool} (ha : a.actor = some p) (hr : dropSeat (some r₀) p d = some r)
      (hf : (remains r p d).active.first = some first) :
      Change w id a (some r₀) (some (handedOver (remains r p d) p first))
  | created {p name : String} {v pw game : Value} {r : Room} {max now : Nat} {binary : Bool} (ha : a = .text p v)
      (hfile : (w.place id).file = none)
      (hroom : r = { Room.new id name p max pw game now with binary := binary }) (hmax : 1 ≤ max)
      (hfit : w.config.RoomFits r) : Change w id a none (some (Server.joined r p))
  | woken {p : String} {v pw hd : Value} {st : Bytes} {r : Room} {now : Nat} (ha : a = .text p v)
      (hfile : (w.place id).file = some (.record hd st)) (hid : hd.idx "roomId" = .str id)
      (hlen : Store.headerLen hd ≤ Store.headerMax)
      (hroom : r = { Store.roomOf hd id now with state := st }) (he : Server.entryError r p pw = none) :
      Change w id a none (some (Server.joined r p))
  | joined {p : String} {v pw : Value} {r : Room} (ha : a = .text p v) (he : Server.entryError r p pw = none) :
      Change w id a (some r) (some (Server.joined r p))
  | edited {p : String} {v : Value} {r r' : Room} {es : List Event} {jobs jobs' : String → List Value}
      (ha : a = .text p v) (hm : p ∈ r.active) (he : Edit w.config jobs p (v.idx "data") r r' es jobs') :
      Change w id a (some r) (some r')
  | wrote {p : String} {b bid : Bytes} {r : Room} {u : Upload} {now : Nat} (ha : a = .binary p b) (hm : p ∈ r.active)
      (hp : r.persistent = true) (hb : uploadShaped b = true) (hu : r.upload = some u) (hid : parseUuid u.id = some bid)
      (hst : staleChunk r u bid p b = false) :
      Change w id a (some r) (some { r with upload := some (u.write (b.drop 21) now) })
  | rejected {p : String} {b bid : Bytes} {r : Room} {u : Upload} (ha : a = .binary p b) (hm : p ∈ r.active)
      (hp : r.persistent = true) (hb : uploadShaped b = true) (hu : r.upload = some u) (hid : parseUuid u.id = some bid)
      (hst : staleChunk r u bid p b = true) : Change w id a (some r) (some { r with upload := none })

omit [Extern] in
theorem Spared.live_eq {shared : Prop} {id : String} {x y : Place} (h : Spared shared id x y) : y.live = x.live := by
  cases h <;> rfl

/-- **Every turn is a change of its live room.** -/
theorem Turn.change {w : World} {id : String} {a : Act} {x y : Place} (h : Turn w id a x y) (hx : x = w.place id) :
    Change w id a x.live y.live := by
  cases h with
  | spared h => rw [h.live_eq]; exact .same _
  | expired =>
    cases hl : x.live with
    | none => exact .same _
    | some r => exact .unseated _
  | left ha h =>
    cases h with
    | elsewhere h =>
      rw [h.live_eq]
      show Change w id a x.live (dropSeat x.live _ _)
      unfold dropSeat
      split
      · exact .same _
      · cases hl : x.live with
        | none => exact .same _
        | some r => exact .unseated _
    | deleted => exact .gone _
    | slept hr he hp h => rw [h.live_eq]; exact .gone _
    | kept hr he hp =>
      cases hl : x.live with
      | none => rw [hl] at hr; unfold dropSeat at hr; split at hr <;> cases hr
      | some r₀ => exact .kept ha (hl ▸ hr) he hp
    | stayed hr hf =>
      cases hl : x.live with
      | none => rw [hl] at hr; unfold dropSeat at hr; split at hr <;> cases hr
      | some r₀ => exact .stayed ha (hl ▸ hr) hf
  | created ha hlow hl hfile hpast hroom hmax hfit => rw [hl]; exact .created ha (hx ▸ hfile) hroom hmax hfit
  | woken ha hl hfile hid hlen hroom he => rw [hl]; exact .woken ha (hx ▸ hfile) hid hlen hroom he
  | joined ha hl he => rw [hl]; exact .joined ha he
  | refused => exact .gone _
  | edited ha hl hid hm hj he => rw [hl]; exact .edited ha hm he
  | wrote ha hl hrid hm hp hb hu hid hst => rw [hl]; exact .wrote ha hm hp hb hu hid hst
  | rejected ha hl hm hp hb hu hid hst => rw [hl]; exact .rejected ha hm hp hb hu hid hst
  | timedOut ha =>
    cases hl : x.live with
    | none => exact .same _
    | some r => exact .timedOut ha
  | slept ha hl hp hact h => rw [h.live_eq]; exact .gone _

theorem Move.change {a : Act} {w w' : World} (h : Move a w w') (hk : w.Keyed) (hs : w.Seated) (id : String) :
    Change w id a (w.rooms id) (w'.rooms id) := (h.turn hk hs id).change rfl

/-! Runs act by act. -/

/-- The worlds of a run up to the `n`-th act. -/
structure Path (w : World) (ws : Nat → World) (n : Nat) : Prop where
  start : ws 0 = w
  acts : ∀ i, i < n → ∃ a, Move a (ws i) (ws (i + 1))

namespace Path

variable {w : World} {ws : Nat → World} {n : Nat}

theorem mono (h : Path w ws n) {m : Nat} (hm : m ≤ n) : Path w ws m := ⟨h.start, fun i hi => h.acts i (by omega)⟩

/-- **What every act keeps, every world of a run has.** -/
theorem invariant {I : World → Prop} (hI : ∀ a w w', Move a w w' → I w → I w') (hw : I w) :
    ∀ {n : Nat}, Path w ws n → I (ws n)
  | 0, h => by rw [h.start]; exact hw
  | n + 1, h => by
    obtain ⟨a, ha⟩ := h.acts n (Nat.lt_succ_self n)
    exact hI a _ _ ha (invariant hI hw (h.mono (Nat.le_succ n)))

/-- One more act. -/
theorem snoc (h : Path w ws n) {a : Act} {w' : World} (ha : Move a (ws n) w') :
    Path w (update ws (n + 1) w') (n + 1) := by
  refine ⟨by rw [Function.update_of_ne (by omega)]; exact h.start, fun i hi => ?_⟩
  rw [Function.update_of_ne (show i ≠ n + 1 by omega)]
  by_cases hin : i = n
  · subst hin
    rw [Function.update_self]
    exact ⟨a, ha⟩
  · rw [Function.update_of_ne (show i + 1 ≠ n + 1 by omega)]
    exact h.acts i (by omega)

/-- The tables of every world of a run are keyed, and members sit where they are. -/
theorem seated (h : Path w ws n) (hk : w.Keyed) (hs : w.Seated) : ∀ {i : Nat}, i ≤ n → (ws i).Keyed ∧ (ws i).Seated :=
  fun hi => (h.mono hi).invariant (I := fun w => w.Keyed ∧ w.Seated)
    (fun _ _ _ hm hw => ⟨hm.keyed hw.1, hm.seated hw.2⟩) ⟨hk, hs⟩

theorem change (h : Path w ws n) (hk : w.Keyed) (hs : w.Seated) (id : String) {i : Nat} (hi : i < n) :
    ∃ a, Change (ws i) id a ((ws i).rooms id) ((ws (i + 1)).rooms id) := by
  obtain ⟨a, ha⟩ := h.acts i hi
  obtain ⟨hk', hs'⟩ := h.seated hk hs (Nat.le_of_lt hi)
  exact ⟨a, ha.change hk' hs' id⟩

end Path

/-- **Every run goes act by act.** -/
theorem Server.Run.path {G : Env → Server → Command → Prop} {s t : Server} {config : Config} (h : Run G s t)
    (hb : s.world.Base config) : ∃ ws n, Path s.world ws n ∧ ws n = t.world := by
  refine Run.invariant (I := fun w => ∃ ws n, Path s.world ws n ∧ ws n = w) (fun _ _ _ a w w' _ _ _ hm => ?_) h hb
    ⟨fun _ => s.world, 0, ⟨rfl, (fun i hi => nomatch hi)⟩, rfl⟩
  rintro ⟨ws, n, hp, rfl⟩
  exact ⟨_, n + 1, hp.snoc hm, Function.update_self ..⟩

end Relay
