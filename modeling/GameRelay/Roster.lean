import GameRelay.Changes
/-!
# Roster — who may come back to a started room, and that there is a place

A fixed room lets its roster in, a room started otherwise who left it by losing the connection.  `Room.Counted` says that
those who are in and those who may come back fit together: on a fixed roster both are of the roster, which is no longer
than the room is large; elsewhere reservations and members are apart and within the capacity.  **Every act keeps every
live room counted, and every file the roster of a counted room.**
-/
namespace Relay

open Function (update)

namespace IndexSet

variable {α : Type} [DecidableEq α]

theorem size_insert {s : IndexSet α} {a : α} (h : a ∉ s) : (s.insert a).size = s.size + 1 := by
  unfold insert
  rw [dif_neg (show a ∉ s.items from h)]
  exact List.length_append ..

theorem size_shiftRemove {s : IndexSet α} {a : α} (h : a ∈ s) : (s.shiftRemove a).size + 1 = s.size := by
  have hmem : a ∉ s.shiftRemove a := fun hm => (mem_shiftRemove.1 hm).2 rfl
  have hperm : ((s.shiftRemove a).insert a).items.Perm s.items :=
    (List.perm_ext_iff_of_nodup (nodup _) s.nodup).2 (fun b => by
      show b ∈ (s.shiftRemove a).insert a ↔ b ∈ s
      rw [mem_insert, mem_shiftRemove]
      by_cases hb : b = a
      · rw [hb]; exact ⟨fun _ => h, fun _ => .inl rfl⟩
      · exact ⟨fun hs => (hs.resolve_left hb).1, fun hs => .inr ⟨hs, hb⟩⟩)
  rw [← size_insert hmem]
  exact hperm.length_eq

omit [DecidableEq α] in
/-- Whoever is missing from a part leaves a place in the whole. -/
theorem size_lt {s t : IndexSet α} (hst : ∀ a ∈ s, a ∈ t) {b : α} (hb : b ∈ t) (hn : b ∉ s) : s.size < t.size := by
  have hsub : (b :: s.items) ⊆ t.items := fun x hx => by
    rcases List.mem_cons.1 hx with rfl | hx
    · exact hb
    · exact hst x hx
  exact (List.subperm_of_subset (List.nodup_cons.2 ⟨hn, s.nodup⟩) hsub).length_le

theorem foldl_insert : ∀ {l : List α} {s : IndexSet α}, (s.items ++ l).Nodup → (l.foldl insert s).items = s.items ++ l
  | [], s, _ => (List.append_nil _).symm
  | a :: l, s, h => by
    have hn : a ∉ s := fun hm => (List.nodup_append.1 h).2.2 a hm a List.mem_cons_self rfl
    have hins : (s.insert a).items = s.items ++ [a] := by
      unfold insert
      rw [dif_neg (show a ∉ s.items from hn)]
    have happ : (s.insert a).items ++ l = s.items ++ a :: l := by rw [hins, List.append_assoc]; rfl
    rw [List.foldl_cons, foldl_insert (happ ▸ h), happ]

end IndexSet

theorem departed_fixed (r : Room) (p : String) (d : Bool) : (Server.departed r p d).started = r.started ∧
    (Server.departed r p d).fixed = r.fixed ∧ (Server.departed r p d).players = r.players ∧
    (Server.departed r p d).max = r.max ∧ (Server.departed r p d).persistent = r.persistent := by
  unfold Server.departed
  dsimp only
  refine ⟨?_, ?_, ?_, ?_, ?_⟩
  all_goals repeat' split
  all_goals rfl

theorem departed_reservations (r : Room) (p : String) (d : Bool) : (Server.departed r p d).reservations =
    if d && r.started then r.reservations.insert p else r.reservations.shiftRemove p := by
  have hlast : ∀ r₁ : Room, r₁.reservations = r.reservations → r₁.started = r.started →
      (if d && r₁.started then { r₁ with reservations := r₁.reservations.insert p }
        else { r₁ with reservations := r₁.reservations.shiftRemove p }).reservations =
      if d && r.started then r.reservations.insert p else r.reservations.shiftRemove p := fun r₁ hres hst => by
    rw [← hres, ← hst]
    split <;> rfl
  refine hlast (if r.upload.any (fun u => decide (u.owner = p)) then
    { r with active := r.active.shiftRemove p, upload := none } else { r with active := r.active.shiftRemove p }) ?_ ?_
  · split <;> rfl
  · split <;> rfl

/-- Those who are in a room and those who may come back fit into it. -/
structure Room.Counted (r : Room) : Prop where
  waiting : r.started = false → r.fixed = false ∧ r.reservations.size = 0
  roster : r.fixed = true → (∀ p ∈ r.active, p ∈ r.players) ∧ r.players.size ≤ r.max
  apart : r.fixed = false → (∀ p ∈ r.active, p ∉ r.reservations) ∧ r.active.size + r.reservations.size ≤ r.max
  saved : r.persistent = true → r.fixed = true

namespace Room.Counted

variable {r : Room} {p : String}

/-- **Whoever may come back finds a place.** -/
theorem place (h : r.Counted) (hp : r.rejoin p = true) (hn : p ∉ r.active) : r.active.size < r.max := by
  unfold Room.rejoin at hp
  split at hp
  · rename_i hf
    obtain ⟨hsub, hmax⟩ := h.roster hf
    exact Nat.lt_of_lt_of_le (IndexSet.size_lt hsub (IndexSet.contains_iff.1 hp) hn) hmax
  · rename_i hf
    obtain ⟨-, hmax⟩ := h.apart (eq_false_of_ne_true hf)
    have := IndexSet.size_pos (IndexSet.contains_iff.1 hp)
    omega

theorem dropReservation (h : r.Counted) (p : String) : (r.dropReservation p).Counted := by
  have hle := IndexSet.size_shiftRemove_le r.reservations p
  refine ⟨fun hs => ⟨(h.waiting hs).1, ?_⟩, h.roster, fun hf => ⟨fun q hq hm => ?_, ?_⟩, h.saved⟩
  · have := (h.waiting hs).2
    exact Nat.le_zero.1 (this ▸ hle)
  · exact (h.apart hf).1 q hq (IndexSet.mem_shiftRemove.1 hm).1
  · exact Nat.le_trans (Nat.add_le_add_left hle _) (h.apart hf).2

/-- What changes nothing that is counted. -/
theorem congr {r' : Room} (h : r.Counted) (hs : r'.started = r.started) (hf : r'.fixed = r.fixed) (ha : r'.active = r.active)
    (hr : r'.reservations = r.reservations) (hp : r'.players = r.players) (hm : r'.max = r.max)
    (hv : r'.persistent = r.persistent) : r'.Counted :=
  ⟨fun h' => by rw [hf, hr]; exact h.waiting (hs ▸ h'), fun h' => by rw [ha, hp, hm]; exact h.roster (hf ▸ h'),
    fun h' => by rw [ha, hr, hm]; exact h.apart (hf ▸ h'), fun h' => by rw [hf]; exact h.saved (hv ▸ h')⟩

/-- **Entering takes the place that was kept.** -/
theorem joined (h : r.Counted) {pw : Value} (he : Server.entryError r p pw = none) : (Server.joined r p).Counted := by
  have hfit : r.active.size < r.max ∧ (r.started = true → r.rejoin p = true) := by
    unfold Server.entryError at he
    split at he
    · cases he
    split at he
    · cases he
    rename_i hrej
    split at he
    · cases he
    split at he
    · cases he
    rename_i hfull
    refine ⟨Nat.lt_of_not_le hfull, fun hs => ?_⟩
    by_contra hno
    exact hrej (by rw [hs, Bool.true_and, Bool.not_eq_true']; exact eq_false_of_ne_true hno)
  have hjoin : (Server.joined r p).started = r.started ∧ (Server.joined r p).fixed = r.fixed ∧
      (Server.joined r p).active = r.active.insert p ∧ (Server.joined r p).reservations = r.reservations.shiftRemove p ∧
      (Server.joined r p).players = r.players ∧ (Server.joined r p).max = r.max ∧
      (Server.joined r p).persistent = r.persistent := by
    unfold Server.joined
    dsimp only
    split <;> exact ⟨rfl, rfl, rfl, rfl, rfl, rfl, rfl⟩
  obtain ⟨hs, hf, ha, hr, hp, hm, hv⟩ := hjoin
  have hle := IndexSet.size_shiftRemove_le r.reservations p
  refine ⟨fun h' => ?_, fun h' => ?_, fun h' => ?_, fun h' => by rw [hf]; exact h.saved (hv ▸ h')⟩
  · rw [hf, hr]
    obtain ⟨hw, hn⟩ := h.waiting (hs ▸ h')
    exact ⟨hw, Nat.le_zero.1 (hn ▸ hle)⟩
  · rw [ha, hp, hm]
    rw [hf] at h'
    refine ⟨fun q hq => ?_, (h.roster h').2⟩
    rcases IndexSet.mem_insert.1 hq with rfl | hq
    · have hst : r.started = true := by
        by_contra hno
        rw [(h.waiting (eq_false_of_ne_true hno)).1] at h'
        cases h'
      have hrej := hfit.2 hst
      unfold Room.rejoin at hrej
      rw [if_pos h'] at hrej
      exact IndexSet.contains_iff.1 hrej
    · exact (h.roster h').1 q hq
  · rw [ha, hr, hm]
    rw [hf] at h'
    obtain ⟨hdis, hsum⟩ := h.apart h'
    refine ⟨fun q hq hres => ?_, ?_⟩
    · obtain ⟨hres, hne⟩ := IndexSet.mem_shiftRemove.1 hres
      exact hdis q ((IndexSet.mem_insert.1 hq).resolve_left hne) hres
    · cases hst : r.started with
      | false =>
        have := (h.waiting hst).2
        have := IndexSet.size_insert_le r.active p
        omega
      | true =>
        have hrej := hfit.2 hst
        unfold Room.rejoin at hrej
        rw [if_neg (by rw [h']; exact Bool.false_ne_true)] at hrej
        have := IndexSet.size_shiftRemove (IndexSet.contains_iff.1 hrej)
        have := IndexSet.size_insert_le r.active p
        omega

/-- **Leaving keeps the place of who comes back.** -/
theorem departed (h : r.Counted) (hp : p ∈ r.active) (d : Bool) : (Server.departed r p d).Counted := by
  obtain ⟨hs, hf, hpl, hm, hv⟩ := departed_fixed r p d
  have ha := departed_active r p d
  have hr := departed_reservations r p d
  have hone := IndexSet.size_shiftRemove hp
  refine ⟨fun h' => ?_, fun h' => ?_, fun h' => ?_, fun h' => by rw [hf]; exact h.saved (hv ▸ h')⟩
  · rw [hf, hr]
    obtain ⟨hw, hn⟩ := h.waiting (hs ▸ h')
    refine ⟨hw, ?_⟩
    rw [← hs, h', Bool.and_false, if_neg Bool.false_ne_true]
    exact Nat.le_zero.1 (hn ▸ IndexSet.size_shiftRemove_le r.reservations p)
  · rw [ha, hpl, hm]
    obtain ⟨hsub, hmax⟩ := h.roster (hf ▸ h')
    exact ⟨fun q hq => hsub q (IndexSet.mem_shiftRemove.1 hq).1, hmax⟩
  · rw [ha, hr, hm]
    obtain ⟨hdis, hsum⟩ := h.apart (hf ▸ h')
    split
    rotate_left
    · refine ⟨fun q hq hin => hdis q (IndexSet.mem_shiftRemove.1 hq).1 (IndexSet.mem_shiftRemove.1 hin).1, ?_⟩
      have := IndexSet.size_shiftRemove_le r.reservations p
      omega
    · refine ⟨fun q hq hin => ?_, ?_⟩
      · obtain ⟨hq, hne⟩ := IndexSet.mem_shiftRemove.1 hq
        exact hdis q hq ((IndexSet.mem_insert.1 hin).resolve_left hne)
      · have := IndexSet.size_insert_le r.reservations p
        omega

theorem remains (h : r.Counted) (hp : p ∈ r.active) (d : Bool) : (remains r p d).Counted := by
  have hd := h.departed hp d
  unfold Relay.remains
  split
  · refine ⟨hd.waiting, fun hf => ⟨fun q hq => absurd hq IndexSet.mem_empty, (hd.roster hf).2⟩,
      fun hf => ⟨fun q hq => absurd hq IndexSet.mem_empty, ?_⟩, hd.saved⟩
    have hsum := (hd.apart hf).2
    show 0 + (Server.departed r p d).reservations.size ≤ (Server.departed r p d).max
    omega
  · exact hd

theorem handedOver (h : r.Counted) (p first : String) : (handedOver r p first).Counted := by
  unfold Relay.handedOver
  split
  · exact h.congr rfl rfl rfl rfl rfl rfl rfl
  · exact h

theorem timeoutUpload (h : r.Counted) (now : Nat) : (Server.timeoutUpload now r).Counted := by
  unfold Server.timeoutUpload
  split
  · exact h.congr rfl rfl rfl rfl rfl rfl rfl
  · exact h

/-- A new room, with the one who created it. -/
theorem created {id name : String} {max now : Nat} {pw game : Value} {binary : Bool} (hmax : 1 ≤ max) :
    (Server.joined { Room.new id name p max pw game now with binary := binary } p).Counted := by
  have hnew : Room.Counted { Room.new id name p max pw game now with binary := binary } :=
    ⟨fun _ => ⟨rfl, rfl⟩, (fun hf => nomatch hf), fun _ => ⟨fun _ hq => absurd hq IndexSet.mem_empty, Nat.zero_le _⟩,
      fun hv => nomatch hv⟩
  have hentry : Server.entryError { Room.new id name p max pw game now with binary := binary } p pw = none := by
    unfold Server.entryError
    simp [Room.new, IndexSet.empty, IndexSet.size]
    omega
  exact hnew.joined hentry

end Room.Counted

/-- The set read back is the set written. -/
theorem stringSet_strs (s : IndexSet String) : Store.stringSet (Value.strs s.items) = s := by
  have hread : (((Value.strs s.items).asArray).getD []).filterMap Value.asStr = s.items := by
    show (s.items.map Value.str).filterMap Value.asStr = s.items
    rw [List.filterMap_map]
    exact List.filterMap_some
  have hitems : (s.items.foldl IndexSet.insert IndexSet.empty).items = s.items := by
    rw [IndexSet.foldl_insert (by exact s.nodup)]
    rfl
  unfold Store.stringSet
  rw [hread]
  generalize s.items.foldl IndexSet.insert IndexSet.empty = t at hitems
  cases s
  cases t
  cases hitems
  rfl

/-- The header's roster is no longer than its room is large. -/
def Value.Counts (hd : Value) : Prop := (Store.stringSet (hd.idx "players")).size ≤ ((hd.idx "maxPlayers").asU64).getD 1

theorem Room.Counted.header {r : Room} (h : r.Counted) (hp : r.persistent = true) : r.header.Counts := by
  have hplayers : r.header.idx "players" = Value.strs r.players.items := rfl
  have hmax : (r.header.idx "maxPlayers").asU64 = some r.max := rfl
  unfold Value.Counts
  rw [hplayers, hmax, stringSet_strs]
  exact (h.roster (h.saved hp)).2

/-- A room read back. -/
theorem Value.Counts.room {hd : Value} (h : hd.Counts) (id : String) (now : Nat) (st : Bytes) :
    Room.Counted { Store.roomOf hd id now with state := st } :=
  ⟨(fun hs => nomatch hs), fun _ => ⟨fun _ hq => absurd hq IndexSet.mem_empty, h⟩, (fun hf => nomatch hf), fun _ => rfl⟩

structure World.Counted (w : World) : Prop where
  rooms : ∀ {id r}, w.rooms id = some r → r.Counted
  files : ∀ {k hd st}, w.files k = some (.record hd st) → hd.Counts

theorem World.Sent.counted {w w' : World} (h : w.Sent w') (hw : w.Counted) : w'.Counted := by
  obtain ⟨l, q, -, -, rfl⟩ := h
  exact ⟨hw.rooms, hw.files⟩

namespace World.Counted

variable {w w' : World}

/-- One live room changes. -/
theorem room (hw : w.Counted) {id : String} {o : Option Room} (ho : ∀ r, o = some r → r.Counted)
    (hr : w'.rooms = update w.rooms id o) (hf : w'.files = w.files) : w'.Counted := by
  refine ⟨fun {x r} hx => ?_, fun hk => hw.files (hf ▸ hk)⟩
  rw [hr] at hx
  rcases update_some hx with ⟨-, h⟩ | ⟨-, h⟩
  · exact ho r h
  · exact hw.rooms h

theorem mapRooms (hw : w.Counted) {f : Room → Room} (hf : ∀ r, r.Counted → (f r).Counted)
    (hr : w'.rooms = fun x => (w.rooms x).map f) (hfiles : w'.files = w.files) : w'.Counted := by
  refine ⟨fun {x r} hx => ?_, fun hk => hw.files (hfiles ▸ hk)⟩
  rw [hr] at hx
  obtain ⟨r₀, hr₀, rfl⟩ := Option.map_eq_some_iff.1 hx
  exact hf r₀ (hw.rooms hr₀)

/-- A counted persistent room goes to its file. -/
theorem sleeps {r : Room} (h : w.Sleeps r w') (hw : w.Counted) (hr : r.Counted) (hp : r.persistent = true) : w'.Counted := by
  cases h with
  | mk gone cleared hlive hc hf =>
    refine ⟨hw.rooms, fun {k hd st} hk => ?_⟩
    dsimp only at hk
    split at hk
    · cases hk
    · rw [Function.update_apply] at hk
      split at hk
      · cases hk
        exact hr.header hp
      · exact hw.files hk

theorem dropSeats {p x : String} {d : Bool} {r : Room} (hw : w.Counted) (h : dropSeats w.rooms p d x = some r) :
    r.Counted := by
  obtain ⟨r₀, hr₀, rfl | rfl⟩ := dropSeats_some h
  · exact hw.rooms hr₀
  · exact (hw.rooms hr₀).dropReservation p

theorem left {p : String} {d : Bool} (h : w.Left p d w') (hs : w.Seated) (hw : w.Counted) : w'.Counted := by
  -- the tables without the seats given up elsewhere
  have hdrop : ∀ {w₁ : World}, w₁.rooms = Relay.dropSeats w.rooms p d → w₁.files = w.files → w₁.Counted :=
    fun hr hf => ⟨fun hx => hw.dropSeats (hr ▸ hx), fun hk => hw.files (hf ▸ hk)⟩
  have hremains : ∀ {q : Seat} {id : String} {r : Room}, w.seats p = some q → q.room = some id →
      Relay.dropSeats w.rooms p d id = some r → (Relay.remains r p d).Counted := by
    intro q id r hq hid hr
    obtain ⟨r₀, hr₀, hm⟩ := hs hq hid
    obtain ⟨r₁, hr₁, ha⟩ := dropSeats_of (p := p) d hr₀
    rw [hr] at hr₁
    cases hr₁
    exact (hw.dropSeats hr).remains (ha ▸ hm) d
  have hbase : World.Counted { w with rooms := Relay.dropSeats w.rooms p d } := hdrop rfl rfl
  cases h with
  | nowhere hq hr => exact hdrop rfl rfl
  | deleted hq hid hr he hp => exact hbase.room (o := none) (fun _ h => nomatch h) rfl rfl
  | slept hq hid hr he hp hsl =>
    have hr' := hremains hq hid hr
    refine sleeps hsl (hbase.room (o := none) (fun _ h => nomatch h) rfl rfl) hr' ?_
    exact (remains_keeps _ _ _).2.2.2.trans hp
  | kept hq hid hr he hp =>
    refine hbase.room (fun r' h => ?_) rfl rfl
    cases h
    exact hremains hq hid hr
  | stayed hq hid hr hf =>
    refine hbase.room (fun r' h => ?_) rfl rfl
    cases h
    exact (hremains hq hid hr).handedOver _ _

end World.Counted

variable [Extern]

theorem Edit.counted {c : Config} {jobs jobs' : String → List Value} {p : String} {d : Value} {r r' : Room}
    {es : List Event} (h : Edit c jobs p d r r' es jobs') (hr : r.Counted) : r'.Counted := by
  cases h with
  | settings ho hs hmax hsize hfit =>
    rename_i max
    obtain ⟨hfix, hres⟩ := hr.waiting hs
    have hset : Room.Counted (Relay.settings r max d) := by
      refine ⟨hr.waiting, fun hf => ?_, fun hf => ⟨(hr.apart hf).1, ?_⟩, hr.saved⟩
      · rw [show r.fixed = true from hf] at hfix
        cases hfix
      · show r.active.size + r.reservations.size ≤ max
        omega
    unfold joinClosed
    split
    · exact hset.congr rfl rfl rfl rfl rfl rfl rfl
    · exact hset
  | started ho hs =>
    rename_i enabled now
    obtain ⟨hfix, hres⟩ := hr.waiting hs
    obtain ⟨hdis, hsum⟩ := hr.apart hfix
    refine ⟨(fun h => nomatch h), fun hf => ?_, fun hf => ⟨hdis, hsum⟩, fun hv => ?_⟩
    · have hplayers : (startedRoom enabled r d now).players = r.active := by
        show (if (startedRoom enabled r d now).fixed = true then r.active else r.players) = _
        rw [if_pos hf]
      rw [hplayers]
      exact ⟨fun _ hq => hq, by show r.active.size ≤ r.max; omega⟩
    · unfold startedRoom at hv
      simp only [Bool.and_eq_true] at hv
      exact hv.1.2.1
  | none => exact hr
  | metadata => exact hr.congr rfl rfl rfl rfl rfl rfl rfl
  | pushed => exact hr.congr rfl rfl rfl rfl rfl rfl rfl
  | began => exact hr.congr rfl rfl rfl rfl rfl rfl rfl
  | commit => exact hr.congr rfl rfl rfl rfl rfl rfl rfl

/-- **Every act keeps live rooms counted**, and what is on file. -/
theorem Effect.counted {a : Act} {w w' : World} (h : Effect a w w') (hs : w.Seated) (hw : w.Counted) : w'.Counted := by
  have same : ∀ {w₁ : World}, w₁.rooms = w.rooms → w₁.files = w.files → w₁.Counted :=
    fun hr hf => ⟨fun hx => hw.rooms (hr ▸ hx), fun hk => hw.files (hf ▸ hk)⟩
  have set : ∀ {id : String} {r' : Room} {w₁ : World}, r'.Counted → w₁.rooms = update w.rooms id (some r') →
      w₁.files = w.files → w₁.Counted := fun hr' hr hf => hw.room (fun r h => by cases h; exact hr') hr hf
  cases h with
  | idle => exact hw
  | connected h => exact same rfl rfl
  | unlinked hl hq => exact same rfl rfl
  | queued hd => exact same rfl rfl
  | gone hl hp hq hc h =>
    refine World.Counted.left h (hs.seat (fun q id he hid => ?_) rfl rfl) (same rfl rfl)
    cases he
    exact ⟨_, hq, hid⟩
  | expired hq hc hf => exact hw.mapRooms (fun r hr => hr.dropReservation _) rfl rfl
  | bound hl hp hq => exact same rfl rfl
  | recalled hl hp => exact same rfl rfl
  | rekeyed hl hu => exact same rfl rfl
  | departed h => exact World.Counted.left h hs hw
  | left h => exact World.Counted.left h hs hw
  | entered hq hc hr hf he =>
    refine set (Room.Counted.joined ?_ he) rfl rfl
    rcases hf with ⟨-, hr⟩ | ⟨-, -, now, hd, st, hfile, -, -, rfl⟩
    · exact hw.rooms hr
    · exact (hw.files hfile).room _ _ _
  | refused hm hid hpw hq hroom hr ha hp he => exact hw.room (o := none) (fun _ h => nomatch h) rfl rfl
  | created hq hc hr hid hfile hhist hlow hroom hmax hfit => exact set (hroom ▸ Room.Counted.created hmax) rfl rfl
  | edited hsit he => exact set (he.counted (hw.rooms hsit.2)) rfl rfl
  | wrote hsit hp hb hu hid hst =>
    refine set ((hw.rooms hsit.2).congr ?_ ?_ ?_ ?_ ?_ ?_ ?_) rfl rfl
    all_goals rfl
  | rejected hsit hp hb hu hid hst =>
    refine set ((hw.rooms hsit.2).congr ?_ ?_ ?_ ?_ ?_ ?_ ?_) rfl rfl
    all_goals rfl
  | timedOut => exact hw.mapRooms (fun r hr => hr.timeoutUpload _) rfl rfl
  | slept hr hp ha h =>
    exact World.Counted.sleeps h (hw.room (o := none) (fun _ h => nomatch h) rfl rfl) (hw.rooms hr) hp

theorem Move.counted {a : Act} {w w' : World} (h : Move a w w') (hs : w.Seated) (hw : w.Counted) : w'.Counted := by
  obtain ⟨w₁, he, hsent⟩ := h
  exact hsent.counted (he.counted hs hw)

/-- Files of counted rooms. -/
def Store.Counted (st : Store) : Prop := ∀ {k hd state}, st.rooms.get k = some (.record hd state) → hd.Counts

end Relay
