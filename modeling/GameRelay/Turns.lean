import GameRelay.Seats
/-!
# Turns — what an act does to one room

`World.place` is what the relay holds of one room: the live room, its file, its queued notices, its history.  `Turn`
says all that one act can do to a place, whoever acts and wherever; every act is a turn of every room (`Move.turn`), so
what all turns keep holds of every room of every run.
-/
namespace Relay

open Function (update)

/-- One room: live, on file, in the job lists, and what happened to it. -/
structure Place where
  live : Option Room
  file : Option RoomFile
  jobs : List Value
  past : List Event

def eventsOf (id : String) (es : List Event) : List Event := es.filter (fun e => decide (e.room = id))

def World.place (w : World) (id : String) : Place :=
  ⟨w.rooms id, w.files (lowerText id), w.jobs id, eventsOf id w.history⟩

/-- Another room, live or on file, shares the path of this one's file. -/
def World.Aliased (w : World) (id : String) : Prop :=
  ∃ x, x ≠ id ∧ lowerText x = lowerText id ∧ ((w.rooms x).isSome ∨ (w.files x).isSome ∨ x = lowerText id)

/-- Whose frame or departure the act is. -/
def Act.actor : Act → Option String
  | .gone _ p | .departed p | .text p _ | .binary p _ => some p
  | _ => none

/-- What other rooms' files do to a place: its own file stays or is evicted, unless its path is shared. -/
inductive Spared (shared : Prop) (id : String) (x : Place) : Place → Prop
  | same : Spared shared id x x
  | evicted {jobs : List Value} {es : List Event} (hl : x.live = none) (hne : es ≠ []) (hes : ∀ e ∈ es, e = .evicted id)
      (hj : jobs = x.jobs ∨ jobs = []) :
      Spared shared id x { x with file := none, jobs := jobs, past := x.past ++ es }
  | overwritten {file : Option RoomFile} {jobs : List Value} {es : List Event} (hs : shared)
      (hl : es ≠ [] → x.live = none) (hes : ∀ e ∈ es, e = .evicted id) (hj : jobs = x.jobs ∨ (jobs = [] ∧ es ≠ [])) :
      Spared shared id x { x with file := file, jobs := jobs, past := x.past ++ es }

/-- The room once `p` gave up the seat it held there, if it left some room for good. -/
def dropSeat (o : Option Room) (p : String) (d : Bool) : Option Room := if d then o else o.map (Room.dropReservation p)

/-- The place after a room that is no longer live went to its file. -/
def Place.asleep (x : Place) (r : Room) : Place := { x with live := none, file := some (.record r.header r.state) }

/-- What the departure of `p` from a room does to a place. -/
inductive Leaves (shared : Prop) (id p : String) (d : Bool) (x : Place) : Place → Prop
  | elsewhere {y : Place} (h : Spared shared id { x with live := dropSeat x.live p d } y) : Leaves shared id p d x y
  | deleted {r : Room} (hr : dropSeat x.live p d = some r) (he : (remains r p d).active.isEmpty = true)
      (hp : r.persistent = false) : Leaves shared id p d x { x with live := none }
  | slept {r : Room} {y : Place} (hr : dropSeat x.live p d = some r) (he : (remains r p d).active.isEmpty = true)
      (hp : r.persistent = true) (h : Spared shared id (x.asleep (remains r p d)) y) : Leaves shared id p d x y
  | kept {r : Room} (hr : dropSeat x.live p d = some r) (he : (remains r p d).active.isEmpty = true)
      (hp : r.persistent = true) : Leaves shared id p d x { x with live := some (remains r p d) }
  | stayed {r : Room} {first : String} (hr : dropSeat x.live p d = some r)
      (hf : (remains r p d).active.first = some first) :
      Leaves shared id p d x { x with
        live := some (handedOver (remains r p d) p first)
        past := x.past ++ if r.owner = p then [.hosted id first (r.generation + 1)] else [] }

theorem eventsOf_append (id : String) (a b : List Event) : eventsOf id (a ++ b) = eventsOf id a ++ eventsOf id b :=
  List.filter_append ..

theorem eventsOf_eq_self {id : String} {es : List Event} (h : ∀ e ∈ es, e.room = id) : eventsOf id es = es :=
  List.filter_eq_self.2 (fun e he => decide_eq_true (h e he))

theorem eventsOf_eq_nil {id : String} {es : List Event} (h : ∀ e ∈ es, e.room ≠ id) : eventsOf id es = [] :=
  List.filter_eq_nil_iff.2 (fun e he hd => h e he (of_decide_eq_true hd))

theorem dropSeats_eq (rooms : String → Option Room) (p : String) (d : Bool) (x : String) :
    dropSeats rooms p d x = dropSeat (rooms x) p d := by
  unfold dropSeats dropSeat; split <;> rfl

/-- **What a room's sleep does to a place**: its own gets the file, and the others are spared. -/
theorem World.Sleeps.spared {r : Room} {w w' : World} (h : w.Sleeps r w') {id : String} {shared : Prop} {x : Place}
    (hx : x = if id = r.id then { w.place id with file := some (.record r.header r.state) } else w.place id)
    (hroom : r.id ≠ id → lowerText r.id = lowerText id → shared)
    (hfiles : ∀ k, k ≠ id → lowerText k = lowerText id → (w.files k).isSome ∨ k = lowerText id → shared) :
    Spared shared id x (w'.place id) := by
  cases h with
  | mk gone cleared hlive hcleared hfile =>
  -- this room's evictions in the pass
  have hpast : eventsOf id (w.history ++ gone.map .evicted) =
      eventsOf id w.history ++ (gone.filter (fun k => k = id)).map .evicted := by
    rw [eventsOf_append, eventsOf, eventsOf, List.filter_map]
    rfl
  have hes : ∀ e ∈ (gone.filter (fun k => decide (k = id))).map Event.evicted, e = .evicted id := by
    intro e he
    obtain ⟨k, hk, rfl⟩ := List.mem_map.1 he
    rw [List.mem_filter] at hk
    rw [of_decide_eq_true hk.2]
  have hnil : (gone.filter (fun k => decide (k = id))).map Event.evicted = [] ↔ id ∉ gone := by
    rw [List.map_eq_nil_iff, List.filter_eq_nil_iff]
    constructor
    · intro h hm; exact h id hm (decide_eq_true rfl)
    · intro h k hk hd; exact h (of_decide_eq_true hd ▸ hk)
  have hlx : x.live = w.rooms id := by rw [hx]; split <;> rfl
  have hjx : x.jobs = w.jobs id := by rw [hx]; split <;> rfl
  have hpx : x.past = eventsOf id w.history := by rw [hx]; split <;> rfl
  have hjobs : ∀ {P : Prop}, (id ∈ gone → P) →
      (if id ∈ cleared then [] else w.jobs id) = x.jobs ∨ ((if id ∈ cleared then [] else w.jobs id) = [] ∧ P) := by
    intro P hP
    split
    · exact .inr ⟨rfl, hP (hcleared (by assumption))⟩
    · exact .inl hjx.symm
  have hy : (⟨w.rooms id, if lowerText id ∈ gone.map lowerText then none else
      update w.files (lowerText r.id) (some (.record r.header r.state)) (lowerText id),
      if id ∈ cleared then [] else w.jobs id, eventsOf id (w.history ++ gone.map .evicted)⟩ : Place) =
      { x with
        file := if lowerText id ∈ gone.map lowerText then none else
          update w.files (lowerText r.id) (some (.record r.header r.state)) (lowerText id)
        jobs := if id ∈ cleared then [] else w.jobs id
        past := x.past ++ (gone.filter (fun k => k = id)).map .evicted } := by
    rw [hpast, hpx, hlx]
  show Spared shared id x ⟨_, _, _, _⟩
  by_cases hshared : shared
  · show Spared shared id x (⟨w.rooms id, _, _, _⟩ : Place)
    refine hy ▸ .overwritten hshared (fun hne => ?_) hes (hjobs (fun h hn => hnil.1 hn h))
    rw [hlx]
    exact hlive id (not_not.1 (fun hn => hne (hnil.2 hn)))
  · by_cases hg : id ∈ gone
    · refine hy ▸ ?_
      rw [if_pos (List.mem_map_of_mem hg)]
      exact .evicted (by rw [hlx]; exact hlive id hg) (fun hn => hnil.1 hn hg) hes
        ((hjobs (P := True) (fun _ => trivial)).imp (fun h => h) And.left)
    · -- nothing was evicted here, and nothing else has this path
      have hgone : lowerText id ∉ gone.map lowerText := by
        intro hm
        obtain ⟨k, hk, hlow⟩ := List.mem_map.1 hm
        have hne : k ≠ id := fun h => hg (h ▸ hk)
        have hf := hfile k hk
        rw [Function.update_apply] at hf
        split at hf
        · rename_i hkr
          have hlow' : lowerText r.id = lowerText id := by rw [← hlow, hkr, lowerText_idem]
          exact hshared (hfiles k hne hlow (.inr (hkr.trans hlow')))
        · exact hshared (hfiles k hne hlow (.inl hf))
      have hfile : update w.files (lowerText r.id) (some (.record r.header r.state)) (lowerText id) = x.file := by
        rw [hx, Function.update_apply]
        by_cases hid : id = r.id
        · rw [if_pos hid, if_pos (by rw [hid])]
        · rw [if_neg hid, if_neg (fun h => hshared (hroom (fun h => hid h.symm) h.symm))]; rfl
      have hj : (if id ∈ cleared then [] else w.jobs id) = x.jobs := by
        rw [if_neg (fun h => hg (hcleared h)), hjx]
      refine hy ▸ ?_
      rw [if_neg hgone, hfile, hj, hnil.2 hg, List.append_nil]
      exact .same

theorem World.Aliased.room {w : World} {id x : String} {r : Room} (hr : w.rooms x = some r) (hne : x ≠ id)
    (hlow : lowerText x = lowerText id) : w.Aliased id := ⟨x, hne, hlow, .inl (by rw [hr]; rfl)⟩

theorem World.Aliased.file {w : World} {id : String} (k : String) (hne : k ≠ id) (hlow : lowerText k = lowerText id)
    (h : (w.files k).isSome ∨ k = lowerText id) : w.Aliased id := ⟨k, hne, hlow, .inr h⟩

/-- **A departure, seen from one room.** -/
theorem World.Left.leaves {p : String} {d : Bool} {w w' : World} (h : w.Left p d w') (hk : w.Keyed) (id : String) :
    Leaves (w.Aliased id) id p d (w.place id) (w'.place id) := by
  have away : Leaves (w.Aliased id) id p d (w.place id) { w.place id with live := dropSeats w.rooms p d id } := by
    rw [dropSeats_eq]; exact .elsewhere .same
  -- another room's entry changes
  have other : ∀ {id' : String} {o : Option Room} {hist : List Event}, id ≠ id' → (∀ e ∈ hist, e.room = id') →
      Leaves (w.Aliased id) id p d (w.place id) ⟨update (dropSeats w.rooms p d) id' o id, w.files (lowerText id),
        w.jobs id, eventsOf id (w.history ++ hist)⟩ := by
    intro id' o hist hne hh
    have hnil : eventsOf id hist = [] := eventsOf_eq_nil (fun e he h => hne (by rw [← h, hh e he]))
    rw [Function.update_of_ne hne, eventsOf_append, hnil, List.append_nil]
    exact away
  cases h with
  | nowhere hq hr => exact away
  | deleted hq hid hr he hp =>
    rename_i q id' r
    by_cases hne : id = id'
    · subst hne
      have hr' := hr
      rw [dropSeats_eq] at hr'
      show Leaves _ _ _ _ _ ⟨update (dropSeats w.rooms p d) id none id, _, _, _⟩
      rw [Function.update_self]
      exact .deleted hr' he hp
    · have := @other id' none [] hne (fun e he => nomatch he)
      rw [List.append_nil] at this
      exact this
  | slept hq hid hr he hp hs =>
    rename_i q id' r
    have hrid : (remains r p d).id = id' := (remains_keeps _ _ _).1.trans (dropSeats_id hk.rooms hr)
    obtain ⟨r₀, hr₀, -⟩ := dropSeats_some hr
    have hspared := fun x hx => @World.Sleeps.spared _ _ _ hs id (w.Aliased id) x hx
      (fun hne hlow => .room (by rw [hrid]; exact hr₀) hne hlow)
      (fun k hne hlow h => World.Aliased.file (w := w) k hne hlow h)
    by_cases hne : id = id'
    · subst hne
      rw [dropSeats_eq] at hr
      refine .slept hr he hp (hspared _ ?_)
      rw [if_pos hrid.symm]
      show _ = Place.mk (update (dropSeats w.rooms p d) id none id) _ _ _
      rw [Function.update_self]
      rfl
    · refine .elsewhere (hspared _ ?_)
      rw [if_neg (fun h => hne (h.trans hrid))]
      show _ = Place.mk (update (dropSeats w.rooms p d) id' none id) _ _ _
      rw [Function.update_of_ne hne, dropSeats_eq]
      rfl
  | kept hq hid hr he hp =>
    rename_i q id' r
    by_cases hne : id = id'
    · subst hne
      have hr' := hr
      rw [dropSeats_eq] at hr'
      show Leaves _ _ _ _ _ ⟨update (dropSeats w.rooms p d) id (some _) id, _, _, _⟩
      rw [Function.update_self]
      exact .kept hr' he hp
    · have := @other id' (some (remains r p d)) [] hne (fun e he => nomatch he)
      rw [List.append_nil] at this
      exact this
  | stayed hq hid hr hf =>
    rename_i q id' r first
    have hrid : r.id = id' := dropSeats_id hk.rooms hr
    have hes : ∀ e ∈ (if r.owner = p then [Event.hosted r.id first (r.generation + 1)] else []), e.room = id' := by
      intro e he
      split at he
      · rw [List.mem_singleton.1 he]; exact hrid
      · cases he
    by_cases hne : id = id'
    · subst hne
      have hr' := hr
      rw [dropSeats_eq] at hr'
      show Leaves _ _ _ _ _ ⟨update (dropSeats w.rooms p d) id (some _) id, _, _, eventsOf id (_ ++ _)⟩
      rw [Function.update_self, eventsOf_append, eventsOf_eq_self hes, hrid]
      exact .stayed hr' hf
    · exact other hne hes

variable [Extern]

/-- **What one act in the world `w` does to one room.** -/
inductive Turn (w : World) (id : String) (a : Act) (x : Place) : Place → Prop
  | spared {y : Place} (h : Spared (w.Aliased id) id x y) : Turn w id a x y
  | expired {p : String} : Turn w id a x { x with live := x.live.map (Room.dropReservation p) }
  | left {p : String} {d : Bool} {y : Place} (ha : a.actor = some p) (h : Leaves (w.Aliased id) id p d x y) :
      Turn w id a x y
  | created {p name : String} {v pw game : Value} {r : Room} {max now : Nat} {binary : Bool} (ha : a = .text p v)
      (hlow : lowerText id = id) (hl : x.live = none) (hfile : x.file = none) (hpast : x.past = [])
      (hroom : r = { Room.new id name p max pw game now with binary := binary }) (hmax : 1 ≤ max) (hfit : w.config.RoomFits r) :
      Turn w id a x { x with live := some (Server.joined r p), past := x.past ++ [.created id p] }
  | woken {p : String} {v pw hd : Value} {st : Bytes} {r : Room} {now : Nat} (ha : a = .text p v) (hl : x.live = none)
      (hfile : x.file = some (.record hd st)) (hid : hd.idx "roomId" = .str id) (hlen : Store.headerLen hd ≤ Store.headerMax)
      (hroom : r = { Store.roomOf hd id now with state := st }) (he : Server.entryError r p pw = none) :
      Turn w id a x { x with
        live := some (Server.joined r p), past := x.past ++ Server.entryEvents (some r) r p }
  | joined {p : String} {v pw : Value} {r : Room} (ha : a = .text p v) (hl : x.live = some r)
      (he : Server.entryError r p pw = none) :
      Turn w id a x { x with
        live := some (Server.joined r p), past := x.past ++ Server.entryEvents none r p }
  | refused {p e : String} {v pw : Value} {q : Seat} {r : Room} (ha : a = .text p v) (hq : w.seats p = some q)
      (hroom : q.room = none) (hm : v.idx "method" = .str "enterRoom")
      (hid : (v.idx "data").idx "roomId" = .str id) (hpw : (v.idx "data").idx "password" = pw) (hl : x.live = some r)
      (hact : r.active.isEmpty = true) (hp : r.persistent = true) (he : Server.entryError r p pw = some e) :
      Turn w id a x { x with live := none }
  | edited {p : String} {v : Value} {r r' : Room} {es : List Event} {jobs jobs' : String → List Value}
      (ha : a = .text p v) (hl : x.live = some r) (hid : r.id = id) (hm : p ∈ r.active) (hj : jobs id = x.jobs)
      (he : Edit w.config jobs p (v.idx "data") r r' es jobs') :
      Turn w id a x { x with live := some r', jobs := jobs' id, past := x.past ++ es }
  | wrote {p : String} {b bid : Bytes} {r : Room} {u : Upload} {now : Nat} (ha : a = .binary p b) (hl : x.live = some r)
      (hrid : r.id = id) (hm : p ∈ r.active) (hp : r.persistent = true) (hb : uploadShaped b = true) (hu : r.upload = some u)
      (hid : parseUuid u.id = some bid) (hst : staleChunk r u bid p b = false) :
      Turn w id a x { x with
        live := some { r with upload := some (u.write (b.drop 21) now) }
        past := x.past ++ [.uploaded r.id p (b.drop 21)] }
  | rejected {p : String} {b bid : Bytes} {r : Room} {u : Upload} (ha : a = .binary p b) (hl : x.live = some r)
      (hm : p ∈ r.active) (hp : r.persistent = true) (hb : uploadShaped b = true) (hu : r.upload = some u)
      (hid : parseUuid u.id = some bid) (hst : staleChunk r u bid p b = true) :
      Turn w id a x { x with live := some { r with upload := none } }
  | timedOut {now : Nat} (ha : a = .timedOut now) :
      Turn w id a x { x with live := x.live.map (Server.timeoutUpload now) }
  | slept {r : Room} {y : Place} (ha : a = .slept id) (hl : x.live = some r) (hp : r.persistent = true)
      (hact : r.active.isEmpty = true) (h : Spared (w.Aliased id) id (x.asleep r) y) : Turn w id a x y

/-- An edit keeps to its own room. -/
theorem Edit.own {c : Config} {jobs jobs' : String → List Value} {p : String} {d : Value} {r r' : Room}
    {es : List Event} (h : Edit c jobs p d r r' es jobs') :
    (∀ e ∈ es, e.room = r.id) ∧ ∀ x, x ≠ r.id → jobs' x = jobs x := by
  cases h with
  | started ho hs =>
    refine ⟨fun e he => ?_, fun _ _ => rfl⟩
    split at he
    · rw [List.mem_singleton.1 he]; rfl
    · cases he
  | began hp ho hrev hgen hreq hsize => exact ⟨fun e he => by rw [List.mem_singleton.1 he]; rfl, fun _ _ => rfl⟩
  | commit hp ho hu hc =>
    exact ⟨fun e he => by rw [List.mem_singleton.1 he]; rfl, fun x hx => Function.update_of_ne hx _ _⟩
  | _ => exact ⟨(fun e he => nomatch he), fun _ _ => rfl⟩

omit [Extern] in
theorem entryEvents_room (loaded : Option Room) (r : Room) (p : String) :
    ∀ e ∈ Server.entryEvents loaded r p, e.room = r.id := by
  intro e he
  unfold Server.entryEvents at he
  rcases List.mem_append.1 he with he | he
  · split at he
    · rw [List.mem_singleton.1 he]; rfl
    · cases he
  · split at he
    · rw [List.mem_singleton.1 he]; rfl
    · cases he

/-- **Every act is a turn of every room.** -/
theorem Effect.turn {a : Act} {w w' : World} (h : Effect a w w') (hk : w.Keyed) (hs : w.Seated) (id : String) :
    Turn w id a (w.place id) (w'.place id) := by
  -- one room's entry, its job list and its events
  have set : ∀ {id' : String} {o : Option Room} {es : List Event} {jobs : String → List Value} {y : Place},
      (∀ e ∈ es, e.room = id') → (∀ x, x ≠ id' → jobs x = w.jobs x) →
      (id = id' → Turn w id a (w.place id)
        { w.place id with live := o, jobs := jobs id, past := (w.place id).past ++ es }) →
      y = ⟨update w.rooms id' o id, w.files (lowerText id), jobs id, eventsOf id (w.history ++ es)⟩ →
      Turn w id a (w.place id) y := by
    rintro id' o es jobs y hes hjobs hturn rfl
    by_cases hne : id = id'
    · subst hne
      rw [Function.update_self, eventsOf_append, eventsOf_eq_self hes]
      exact hturn rfl
    · have hnil : eventsOf id es = [] := eventsOf_eq_nil (fun e he h => hne (by rw [← h, hes e he]))
      rw [Function.update_of_ne hne, eventsOf_append, hnil, List.append_nil, hjobs id hne]
      exact .spared .same
  have quiet : ∀ e ∈ ([] : List Event), ∀ id' : String, e.room = id' := fun e he => nomatch he
  cases h with
  | idle => exact .spared .same
  | connected h => exact .spared .same
  | unlinked hl hq => exact .spared .same
  | queued hd => exact .spared .same
  | bound hl hp hq => exact .spared .same
  | recalled hl hp => exact .spared .same
  | rekeyed hl hu => exact .spared .same
  | gone hl hp hq hc h =>
    refine .left rfl (h.leaves ⟨fun {x q'} hx => ?_, hk.rooms⟩ id)
    rcases update_some hx with ⟨rfl, he⟩ | ⟨-, he⟩
    · cases he; exact (hk.seats hq :)
    · exact hk.seats he
  | expired hq hc hf => exact .expired
  | departed h => exact .left rfl (h.leaves hk id)
  | left h => exact .left rfl (h.leaves hk id)
  | entered hq hc hr hf he hm hid hpw =>
    rename_i p id' v pw q r loaded
    have hrid : r.id = id' := hf.id_eq hk
    refine set (fun e he => (entryEvents_room _ _ _ e he).trans hrid) (fun _ _ => rfl) (fun heq => ?_) rfl
    subst heq
    rcases hf with ⟨rfl, hr⟩ | ⟨rfl, hn, now, hd, st, hfile, hid, hlen, hroom⟩
    · exact .joined rfl hr he
    · exact .woken rfl hn hfile hid hlen hroom he
  | refused hm hid hpw hq hroom hr ha hp he =>
    refine @set _ none [] _ _ (fun e he => quiet e he _) (fun _ _ => rfl) (fun heq => ?_) (by rw [List.append_nil]; rfl)
    subst heq
    rw [List.append_nil]
    exact .refused rfl hq hroom hm hid hpw hr ha hp he
  | created hq hc hr hid hfile hhist hlow hroom hmax hfit hfree =>
    rename_i p id' name v pw game q r max now binary
    refine set (fun e he => by rw [List.mem_singleton.1 he]; rfl) (fun _ _ => rfl) (fun heq => ?_) rfl
    subst heq
    refine .created rfl hlow hid ?_ (eventsOf_eq_nil hhist) hroom hmax hfit
    show w.files (lowerText id) = none
    rw [hlow]
    exact hfile
  | edited hsit he =>
    rename_i p id' v r r' es jobs
    have hrid : r.id = id' := hk.rooms hsit.2
    have hown := he.own
    rw [hrid] at hown
    refine set hown.1 hown.2 (fun heq => ?_) rfl
    subst heq
    exact .edited rfl hsit.2 hrid (hs.mem hsit) rfl he
  | wrote hsit hp hb hu hid hst =>
    rename_i p id' b bid r u now
    have hrid : r.id = id' := hk.rooms hsit.2
    refine set (fun e he => by rw [List.mem_singleton.1 he]; exact hrid) (fun _ _ => rfl) (fun heq => ?_) rfl
    subst heq
    exact .wrote rfl hsit.2 hrid (hs.mem hsit) hp hb hu hid hst
  | rejected hsit hp hb hu hid hst =>
    refine @set _ (some _) [] _ _ (fun e he => quiet e he _) (fun _ _ => rfl) (fun heq => ?_) (by rw [List.append_nil]; rfl)
    subst heq
    rw [List.append_nil]
    exact .rejected rfl hsit.2 (hs.mem hsit) hp hb hu hid hst
  | timedOut => exact .timedOut rfl
  | slept hr hp ha h =>
    rename_i id' r
    have hrid : r.id = id' := hk.rooms hr
    have hspared := fun x hx => @World.Sleeps.spared _ _ _ h id (w.Aliased id) x hx
      (fun hne hlow => .room (by rw [hrid]; exact hr) hne hlow) (fun k hne hlow h => World.Aliased.file (w := w) k hne hlow h)
    by_cases hne : id = id'
    · subst hne
      refine .slept rfl hr hp ha (hspared _ ?_)
      rw [if_pos hrid.symm]
      show _ = Place.mk (update w.rooms id none id) _ _ _
      rw [Function.update_self]
      rfl
    · refine .spared (hspared _ ?_)
      rw [if_neg (fun h => hne (h.trans hrid))]
      show _ = Place.mk (update w.rooms id' none id) _ _ _
      rw [Function.update_of_ne hne]
      rfl

omit [Extern] in
theorem World.Sent.place {w w' : World} (h : w.Sent w') (id : String) : w'.place id = w.place id := by
  obtain ⟨l, q, -, -, rfl⟩ := h
  rfl

theorem Move.turn {a : Act} {w w' : World} (h : Move a w w') (hk : w.Keyed) (hs : w.Seated) (id : String) :
    Turn w id a (w.place id) (w'.place id) := by
  obtain ⟨w₁, he, hsent⟩ := h
  rw [hsent.place]
  exact he.turn hk hs id

/-! Files under their rooms' identifiers. -/

/-- What `save` writes: every file lies under the lower-case identifier of the room it holds. -/
def Store.Filed (st : Store) : Prop :=
  ∀ {k f}, st.rooms.get k = some f → lowerText k = k ∧ ∀ hd state, f = .record hd state → hd.idx "roomId" = .str k

structure World.Filed (w : World) : Prop where
  files : ∀ {k f}, w.files k = some f → lowerText k = k ∧ ∀ hd st, f = .record hd st → hd.idx "roomId" = .str k
  live : ∀ {id r}, w.rooms id = some r → lowerText id = id
  past : ∀ {e}, e ∈ w.history → lowerText e.room = e.room

omit [Extern] in
/-- **Then no two rooms share a file.** -/
theorem World.Filed.not_aliased {w : World} (h : w.Filed) {id : String} (hid : lowerText id = id) : ¬ w.Aliased id := by
  rintro ⟨x, hne, hlow, hx⟩
  rw [hid] at hlow hx
  rcases hx with hx | hx | hx
  · obtain ⟨r, hr⟩ := Option.isSome_iff_exists.1 hx
    exact hne ((h.live hr).symm.trans hlow)
  · obtain ⟨f, hf⟩ := Option.isSome_iff_exists.1 hx
    exact hne ((h.files hf).1.symm.trans hlow)
  · exact hne hx

omit [Extern] in
/-- The live rooms are some of those that were, and perhaps one more. -/
theorem World.Filed.mono {w : World} (h : w.Filed) {w' : World} (hf : w'.files = w.files)
    (hr : ∀ id, (w'.rooms id).isSome → (w.rooms id).isSome ∨ lowerText id = id)
    (hh : ∀ e ∈ w'.history, e ∈ w.history ∨ lowerText e.room = e.room) : w'.Filed := by
  refine ⟨fun hx => h.files (hf ▸ hx), fun {id r} hx => ?_, fun {e} he => (hh e he).elim (fun h' => h.past h') id⟩
  rcases hr id (by rw [hx]; rfl) with hx | hx
  · obtain ⟨r₀, hr₀⟩ := Option.isSome_iff_exists.1 hx
    exact h.live hr₀
  · exact hx

omit [Extern] in
theorem World.Sleeps.filed {r : Room} {w w' : World} (h : w.Sleeps r w') (hw : w.Filed) (hr : lowerText r.id = r.id) :
    w'.Filed := by
  cases h with
  | mk gone cleared hlive hcleared hfile =>
  have files : ∀ {k f}, update w.files (lowerText r.id) (some (.record r.header r.state)) k = some f →
      lowerText k = k ∧ ∀ hd st, f = .record hd st → hd.idx "roomId" = .str k := by
    intro k f hk
    rcases update_some hk with ⟨rfl, h⟩ | ⟨-, h⟩
    · refine ⟨lowerText_idem _, fun hd st he => ?_⟩
      cases h
      cases he
      rw [hr]
      rfl
    · exact hw.files h
  refine ⟨fun {k f} hk => ?_, hw.live, fun {e} he => ?_⟩
  · change (if k ∈ gone.map lowerText then none else
      update w.files (lowerText r.id) (some (.record r.header r.state)) k) = some f at hk
    split at hk
    · cases hk
    · exact files hk
  · rcases List.mem_append.1 he with he | he
    · exact hw.past he
    · obtain ⟨k, hk, rfl⟩ := List.mem_map.1 he
      obtain ⟨f, hf⟩ := Option.isSome_iff_exists.1 (hfile k hk)
      exact (files hf).1

omit [Extern] in
theorem World.Left.filed {p : String} {d : Bool} {w w' : World} (h : w.Left p d w') (hk : w.Keyed) (hw : w.Filed) :
    w'.Filed := by
  have drops : ∀ x, (dropSeats w.rooms p d x).isSome → (w.rooms x).isSome := by
    intro x hx
    obtain ⟨r, hr⟩ := Option.isSome_iff_exists.1 hx
    obtain ⟨r₀, hr₀, -⟩ := dropSeats_some hr
    rw [hr₀]; rfl
  have sets : ∀ {id r} (o : Option Room), dropSeats w.rooms p d id = some r →
      ∀ x, (update (dropSeats w.rooms p d) id o x).isSome → (w.rooms x).isSome := by
    intro id r o hr x hx
    by_cases hxi : x = id
    · exact drops x (by rw [hxi, hr]; rfl)
    · rw [Function.update_of_ne hxi] at hx; exact drops x hx
  cases h with
  | nowhere hq hr => exact hw.mono rfl (fun x hx => .inl (drops x hx)) (fun e he => .inl he)
  | deleted hq hid hr he hp => exact hw.mono rfl (fun x hx => .inl (sets _ hr x hx)) (fun e he => .inl he)
  | slept hq hid hr he hp hs =>
    refine hs.filed (hw.mono rfl (fun x hx => .inl (sets _ hr x hx)) (fun e he => .inl he)) ?_
    obtain ⟨r₀, hr₀, -⟩ := dropSeats_some hr
    rw [(remains_keeps _ _ _).1, dropSeats_id hk.rooms hr]
    exact hw.live hr₀
  | kept hq hid hr he hp => exact hw.mono rfl (fun x hx => .inl (sets _ hr x hx)) (fun e he => .inl he)
  | stayed hq hid hr hf =>
    refine hw.mono rfl (fun x hx => .inl (sets _ hr x hx)) (fun e he => ?_)
    rcases List.mem_append.1 he with he | he
    · exact .inl he
    · split at he
      · obtain ⟨r₀, hr₀, -⟩ := dropSeats_some hr
        rw [List.mem_singleton.1 he]
        refine .inr ?_
        show lowerText (Room.id _) = _
        rw [dropSeats_id hk.rooms hr]
        exact hw.live hr₀
      · cases he

/-- **Every act leaves the files under their rooms' identifiers.** -/
theorem Effect.filed {a : Act} {w w' : World} (h : Effect a w w') (hk : w.Keyed) (hw : w.Filed) : w'.Filed := by
  have keep : ∀ {w' : World}, w'.files = w.files → w'.rooms = w.rooms → w'.history = w.history → w'.Filed :=
    fun hf hr hh => hw.mono hf (fun x hx => .inl (hr ▸ hx)) (fun e he => .inl (hh ▸ he))
  have map : ∀ {f : Room → Room} {w' : World}, w'.files = w.files → w'.rooms = (fun x => (w.rooms x).map f) →
      w'.history = w.history → w'.Filed := by
    intro f w' hf hr hh
    refine hw.mono hf (fun x hx => .inl ?_) (fun e he => .inl (hh ▸ he))
    rw [hr] at hx
    simpa using hx
  have set : ∀ {id : String} {o : Option Room} {es : List Event}, lowerText id = id → (∀ e ∈ es, e.room = id) →
      ∀ {w' : World}, w'.files = w.files → w'.rooms = update w.rooms id o → w'.history = w.history ++ es → w'.Filed := by
    intro id o es hid hes w' hf hr hh
    refine hw.mono hf (fun x hx => ?_) (fun e he => ?_)
    · rw [hr] at hx
      by_cases hxi : x = id
      · exact .inr (by rw [hxi, hid])
      · rw [Function.update_of_ne hxi] at hx; exact .inl hx
    · rw [hh] at he
      rcases List.mem_append.1 he with he | he
      · exact .inl he
      · exact .inr (by rw [hes e he, hid])
  have sits : ∀ {p id r}, w.Sits p id r → lowerText id = id := fun h => hw.live h.2
  have quiet : ∀ {id : String}, ∀ e ∈ ([] : List Event), e.room = id := fun e he => nomatch he
  have nil : w.history = w.history ++ [] := (List.append_nil _).symm
  cases h with
  | idle => exact hw
  | gone hl hp hq hc h =>
    refine h.filed ⟨fun {x q'} hx => ?_, hk.rooms⟩ (keep rfl rfl rfl)
    rcases update_some hx with ⟨rfl, he⟩ | ⟨-, he⟩
    · cases he; exact (hk.seats hq :)
    · exact hk.seats he
  | expired hq hc hf => exact map rfl rfl rfl
  | departed h => exact h.filed hk hw
  | left h => exact h.filed hk hw
  | entered hq hc hr hf he hm hid hpw =>
    rename_i p id v pw q r loaded
    have hrid : r.id = id := hf.id_eq hk
    refine set ?_ (fun e he => (entryEvents_room _ _ _ e he).trans hrid) rfl rfl rfl
    rcases hf with ⟨-, hr⟩ | ⟨-, -, now, hd, st, hfile, hid, -, -⟩
    · exact hw.live hr
    · have := (hw.files hfile).2 hd st rfl
      rw [hid] at this
      exact (Value.str.inj this).symm
  | refused hm hid hpw hq hroom hr ha hp he => exact set (hw.live hr) quiet rfl rfl nil
  | created hq hc hr hid hfile hhist hlow hroom hmax hfit hfree =>
    exact set hlow (fun e he => by rw [List.mem_singleton.1 he]; rfl) rfl rfl rfl
  | edited hs he => exact set (sits hs) (fun e h => (he.own.1 e h).trans (hk.rooms hs.2)) rfl rfl rfl
  | wrote hs hp hb hu hid hst =>
    exact set (sits hs) (fun e he => by rw [List.mem_singleton.1 he]; exact (hk.rooms hs.2 :)) rfl rfl rfl
  | rejected hs hp hb hu hid hst => exact set (sits hs) quiet rfl rfl nil
  | timedOut => exact map rfl rfl rfl
  | slept hr hp ha h =>
    rename_i id r
    refine h.filed (set (hw.live hr) quiet rfl rfl nil) ?_
    rw [show r.id = id from hk.rooms hr]
    exact hw.live hr
  | _ => exact keep rfl rfl rfl

omit [Extern] in
theorem World.Sent.filed {w w' : World} (h : w.Sent w') (hw : w.Filed) : w'.Filed := by
  obtain ⟨l, q, -, -, rfl⟩ := h
  exact ⟨hw.files, hw.live, hw.past⟩

theorem Move.filed {a : Act} {w w' : World} (h : Move a w w') (hk : w.Keyed) (hw : w.Filed) : w'.Filed := by
  obtain ⟨w₁, he, hs⟩ := h
  exact hs.filed (he.filed hk hw)

omit [Extern] in
theorem Server.boot_filed (config : Config) {store : Store} (push : Bool) (h : store.Filed) :
    (boot config store push).world.Filed :=
  ⟨(fun hk => h hk), (fun h => nomatch h), (fun h => nomatch h)⟩

/-! What every live room is like. -/

/-- A live room: within its capacity, persistent only as a started game with a fixed roster, and uploading only then, for
someone inside. -/
structure Room.Shaped (r : Room) : Prop where
  size : r.active.size ≤ r.max
  max : 1 ≤ r.max
  game : r.persistent = true → r.started = true ∧ r.fixed = true ∧ r.migration = true
  upload : r.upload.isSome → r.persistent = true
  uploader : ∀ u, r.upload = some u → u.owner ∈ r.active

omit [Extern] in
/-- Neither membership nor the game changes; the upload stays or ends. -/
theorem Room.Shaped.of_eq {r r' : Room} (h : r.Shaped) (ha : r'.active = r.active) (hm : r'.max = r.max)
    (hg : r'.persistent = r.persistent ∧ r'.started = r.started ∧ r'.fixed = r.fixed ∧ r'.migration = r.migration)
    (hu : r'.upload = none ∨ r'.upload = r.upload) : r'.Shaped := by
  obtain ⟨h₁, h₂, h₃, h₄⟩ := hg
  refine ⟨by rw [ha, hm]; exact h.size, by rw [hm]; exact h.max, by rw [h₁, h₂, h₃, h₄]; exact h.game, ?_, ?_⟩
  · rcases hu with hu | hu
    · rw [hu]; intro hs; cases hs
    · rw [hu, h₁]; exact h.upload
  · rcases hu with hu | hu
    · rw [hu]; intro u hs; cases hs
    · rw [hu, ha]; exact h.uploader

omit [Extern] in
theorem entryError_none {r : Room} {p : String} {pw : Value} (h : Server.entryError r p pw = none) :
    r.active.size < r.max := by
  unfold Server.entryError at h
  repeat' split at h
  all_goals first | exact Nat.lt_of_not_le (by assumption) | cases h

omit [Extern] in
theorem Room.Shaped.joined {r : Room} {p : String} (hg : r.persistent = true → r.started = true ∧ r.fixed = true ∧
      r.migration = true) (hu : r.upload.isSome → r.persistent = true) (hup : ∀ u, r.upload = some u → u.owner ∈ r.active)
    (hs : r.active.size < r.max) : (Server.joined r p).Shaped := by
  have hle := IndexSet.size_insert_le r.active p
  unfold Server.joined
  dsimp only
  split
  · refine ⟨?_, ?_, hg, (fun h => nomatch h), (fun _ h => nomatch h)⟩
    · show (r.active.insert p).size ≤ r.max
      omega
    · show 1 ≤ r.max
      omega
  · refine ⟨?_, ?_, hg, hu, fun u h => IndexSet.mem_insert.2 (.inr (hup u h))⟩
    · show (r.active.insert p).size ≤ r.max
      omega
    · show 1 ≤ r.max
      omega

omit [Extern] in
theorem Room.Shaped.departed {r : Room} (h : r.Shaped) (p : String) (d : Bool) : (Server.departed r p d).Shaped := by
  have hle := IndexSet.size_shiftRemove_le r.active p
  have hsize : (Server.departed r p d).active.size ≤ r.max := by rw [departed_active]; exact hle.trans h.size
  have keeps : (Server.departed r p d).max = r.max ∧ (Server.departed r p d).persistent = r.persistent ∧
      (Server.departed r p d).started = r.started ∧ (Server.departed r p d).fixed = r.fixed ∧
      (Server.departed r p d).migration = r.migration ∧
      (Server.departed r p d).upload = if r.upload.any (fun u => decide (u.owner = p)) then none else r.upload := by
    unfold Server.departed
    dsimp only
    split <;> split <;> exact ⟨rfl, rfl, rfl, rfl, rfl, rfl⟩
  obtain ⟨h₁, h₂, h₃, h₄, h₅, h₆⟩ := keeps
  refine ⟨h₁ ▸ hsize, h₁ ▸ h.max, by rw [h₂, h₃, h₄, h₅]; exact h.game, ?_, fun u hu => ?_⟩
  · rw [h₆, h₂]
    split
    · intro hs; cases hs
    · exact h.upload
  · rw [h₆] at hu
    split at hu
    · cases hu
    · rename_i hn
      rw [departed_active]
      refine IndexSet.mem_shiftRemove.2 ⟨h.uploader u hu, fun he => hn ?_⟩
      rw [hu]
      exact decide_eq_true he

omit [Extern] in
theorem Room.Shaped.remains {r : Room} (h : r.Shaped) (p : String) (d : Bool) : (remains r p d).Shaped := by
  have hd := h.departed p d
  unfold Relay.remains
  split
  · rename_i hlost
    -- a game that ends with its owner has no migration, so it saves nothing
    have hnone : (Server.departed r p d).upload = none := by
      cases hu : (Server.departed r p d).upload with
      | none => rfl
      | some u =>
        have hm := (hd.game (hd.upload (by rw [hu]; rfl))).2.2
        unfold Server.ownerLost at hlost
        rw [hm] at hlost
        simp at hlost
    refine ⟨Nat.zero_le _, hd.max, hd.game, hd.upload, fun u hu => ?_⟩
    rw [show (Server.departed r p d).upload = some u from hu] at hnone
    cases hnone
  · exact hd

/-- **Every turn leaves live rooms well shaped.** -/
theorem Turn.shaped {w : World} {id : String} {a : Act} {x y : Place} (h : Turn w id a x y)
    (hx : ∀ r, x.live = some r → r.Shaped) : ∀ r, y.live = some r → r.Shaped := by
  have spared : ∀ {shared : Prop} {x y : Place}, Spared shared id x y → y.live = x.live := by
    intro shared x y h; cases h <;> rfl
  have dropped : ∀ {p d r}, dropSeat x.live p d = some r → r.Shaped := by
    intro p d r hr
    unfold dropSeat at hr
    split at hr
    · exact hx r hr
    · obtain ⟨r₀, hr₀, rfl⟩ := Option.map_eq_some_iff.1 hr
      exact (hx r₀ hr₀).of_eq rfl rfl ⟨rfl, rfl, rfl, rfl⟩ (.inr rfl)
  have one : ∀ {r₁ : Room}, r₁.Shaped → ∀ r, some r₁ = some r → r.Shaped := by
    intro r₁ h r hr; cases hr; exact h
  cases h with
  | spared h => rw [spared h]; exact hx
  | expired =>
    intro r hr
    obtain ⟨r₀, hr₀, rfl⟩ := Option.map_eq_some_iff.1 hr
    exact (hx r₀ hr₀).of_eq rfl rfl ⟨rfl, rfl, rfl, rfl⟩ (.inr rfl)
  | left ha h =>
    cases h with
    | elsewhere h => rw [spared h]; exact fun r hr => dropped hr
    | deleted hr he hp => exact fun r hr => nomatch hr
    | slept hr he hp h => rw [spared h]; exact fun r hr => nomatch hr
    | kept hr he hp => exact one ((dropped hr).remains _ _)
    | stayed hr hf =>
      refine one (((dropped hr).remains _ _).of_eq (handedOver_keeps _ _ _).1 ?_ ?_ ?_)
      · unfold handedOver; split <;> rfl
      · unfold handedOver; split <;> exact ⟨rfl, rfl, rfl, rfl⟩
      · unfold handedOver; split <;> exact .inr rfl
  | created ha hlow hl hfile hpast hroom hmax hfit =>
    subst hroom
    exact one (.joined (fun h => nomatch h) (fun h => nomatch h) (fun _ h => nomatch h) hmax)
  | woken ha hl hfile hid hlen hroom he =>
    have hs := entryError_none he
    subst hroom
    exact one (.joined (fun _ => ⟨rfl, rfl, rfl⟩) (fun h => nomatch h) (fun _ h => nomatch h) hs)
  | joined ha hl he =>
    have h := hx _ hl
    exact one (.joined h.game h.upload h.uploader (entryError_none he))
  | refused => exact fun r hr => nomatch hr
  | edited ha hl hid hm hj he =>
    rename_i p v r r' es jobs jobs'
    have h := hx r hl
    have hpos := IndexSet.size_pos hm
    cases he with
    | none => exact one h
    | settings ho hst hmax hsize hfit =>
      refine one (Room.Shaped.of_eq (r := settings r _ (v.idx "data"))
        ⟨hsize, Nat.le_trans hpos hsize, h.game, h.upload, h.uploader⟩ ?_ ?_ ?_ ?_)
      · unfold joinClosed; split <;> rfl
      · unfold joinClosed; split <;> rfl
      · unfold joinClosed; split <;> exact ⟨rfl, rfl, rfl, rfl⟩
      · unfold joinClosed; split <;> exact .inr rfl
    | started ho hst =>
      -- a game that has not started uploads nothing
      have hnone : r.upload = none := by
        cases hu : r.upload with
        | none => rfl
        | some u => rw [(h.game (h.upload (by rw [hu]; rfl))).1] at hst; cases hst
      refine one ⟨h.size, h.max, fun hp => ?_, fun hu => ?_, fun u hu => ?_⟩
      · simp only [startedRoom, Bool.and_eq_true, decide_eq_true_eq] at hp ⊢
        exact ⟨trivial, hp.1.2.1, hp.1.2⟩
      · rw [show (startedRoom _ r _ _).upload = r.upload from rfl, hnone] at hu; cases hu
      · rw [show (startedRoom _ r _ _).upload = r.upload from rfl, hnone] at hu; cases hu
    | metadata ho hfit => exact one (h.of_eq rfl rfl ⟨rfl, rfl, rfl, rfl⟩ (.inr rfl))
    | pushed ho => exact one (h.of_eq rfl rfl ⟨rfl, rfl, rfl, rfl⟩ (.inr rfl))
    | began hp ho hrev hgen hreq hsize =>
      refine one ⟨h.size, h.max, h.game, fun _ => hp, fun u hu => ?_⟩
      cases hu
      exact hm
    | commit hp ho hu hc => exact one (h.of_eq rfl rfl ⟨rfl, rfl, rfl, rfl⟩ (.inl rfl))
  | wrote ha hl hrid hm hp hb hu hid hst =>
    have h := hx _ hl
    refine one ⟨h.size, h.max, h.game, fun _ => hp, fun u' hu' => ?_⟩
    cases hu'
    have howner := h.uploader _ hu
    exact howner
  | rejected ha hl hm hp hb hu hid hst => exact one ((hx _ hl).of_eq rfl rfl ⟨rfl, rfl, rfl, rfl⟩ (.inl rfl))
  | timedOut ha =>
    intro r hr
    obtain ⟨r₀, hr₀, rfl⟩ := Option.map_eq_some_iff.1 hr
    refine (hx r₀ hr₀).of_eq (timeoutUpload_active _ _) ?_ ?_ ?_
    · unfold Server.timeoutUpload; split <;> rfl
    · unfold Server.timeoutUpload; split <;> exact ⟨rfl, rfl, rfl, rfl⟩
    · unfold Server.timeoutUpload; split
      · exact .inl rfl
      · exact .inr rfl
  | slept ha hl hp hact h => rw [spared h]; exact fun r hr => nomatch hr

end Relay
