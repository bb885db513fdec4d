import Mathlib
import GameRelay.Shortest
import GameRelay.Trace
/-!
# Evictions — what `prune` removes

`inactive` are the room files that may go, in the order of `PruneEntry.key`, and `Store.without` is the store once some
of them are gone.  **A pass that meets no failure removes the shortest prefix of them that makes room**
(`eviction_is_minimal`).
-/
namespace Relay

namespace Store

/-- The time of the last update, before all others for an unreadable file. -/
def PruneEntry.age (e : PruneEntry) : WithBot ℕ := e.updated.elim ⊥ WithBot.some

/-- Unreadable files first, then by last update, identifier and size. -/
def PruneEntry.key (e : PruneEntry) : WithBot ℕ ×ₗ List Char ×ₗ ℕ := toLex (e.age, toLex (e.id.toList, e.size))

theorem PruneEntry.key_le (a b : PruneEntry) :
    a.key ≤ b.key ↔ a.age < b.age ∨ a.age = b.age ∧ (a.id < b.id ∨ a.id = b.id ∧ a.size ≤ b.size) := by
  have hrest : toLex (a.id.toList, a.size) ≤ toLex (b.id.toList, b.size) ↔
      a.id.toList < b.id.toList ∨ a.id.toList = b.id.toList ∧ a.size ≤ b.size := Prod.Lex.toLex_le_toLex
  rw [String.toList_inj] at hrest
  have hkey : a.key ≤ b.key ↔
      a.age < b.age ∨ a.age = b.age ∧ toLex (a.id.toList, a.size) ≤ toLex (b.id.toList, b.size) := Prod.Lex.toLex_le_toLex
  rw [hkey, hrest]
  rfl

/-- **`prune` orders its entries by their keys.** -/
theorem PruneEntry.le_iff (a b : PruneEntry) : a.le b = true ↔ a.key ≤ b.key := by
  rw [PruneEntry.key_le]
  unfold PruneEntry.le PruneEntry.age
  cases a.updated with
  | none =>
    cases b.updated with
    | none =>
      simp only [Option.elim_none, lt_irrefl, false_or, true_and, Bool.or_eq_true, Bool.and_eq_true, decide_eq_true_eq]
    | some y => simp only [Option.elim_none, Option.elim_some, WithBot.bot_lt_coe, true_or]
  | some x =>
    cases b.updated with
    | none => simp only [Option.elim_none, Option.elim_some, not_lt_bot, WithBot.coe_ne_bot, false_and, or_self, Bool.false_eq_true]
    | some y =>
      simp only [Option.elim_some, WithBot.coe_lt_coe, WithBot.coe_inj, Bool.or_eq_true, Bool.and_eq_true, decide_eq_true_eq]

instance : Std.Total (fun a b : PruneEntry => a.le b = true) :=
  ⟨fun a b => by simpa only [PruneEntry.le_iff] using le_total a.key b.key⟩

instance : IsTrans PruneEntry (fun a b => a.le b = true) :=
  ⟨fun a b c hab hbc => by
    rw [PruneEntry.le_iff] at hab hbc ⊢
    exact hab.trans hbc⟩

/-- The store with the files and job lists of these rooms gone. -/
def without (st : Store) (ids : List String) : Store :=
  { st with rooms := st.rooms.retain (fun k _ => !decide (k ∈ ids))
            notifications := st.notifications.retain (fun k _ => !decide (k ∈ ids))
            jobs := st.jobs.retain (fun k _ => !decide (k ∈ ids)) }

theorem without_nil (st : Store) : st.without [] = st := by
  unfold without
  simp only [List.not_mem_nil, decide_false, Bool.not_false, IndexMap.retain_true]

theorem without_without (st : Store) (ids ids' : List String) : (st.without ids).without ids' = st.without (ids ++ ids') := by
  unfold without
  simp only [IndexMap.retain_retain, List.mem_append, Bool.decide_or, Bool.not_or]

variable [Extern]

/-- The room files: those named by an identifier. -/
def roomFiles (st : Store) : List (String × RoomFile) := st.rooms.entries.filter (fun e => isUuid e.1)

/-- The total size of the room files. -/
def occupied (st : Store) : Nat := (st.roomFiles.map (fun e => fileSize e.2)).sum

/-- The room files that are not of live rooms. -/
def inactive (st : Store) (active : List String) (now : Nat) : List PruneEntry :=
  (st.roomFiles.filter (fun e => !decide (e.1 ∈ active))).map (pruneEntry st now)

/-- A room file takes its size. -/
theorem occupied_without {st : Store} {id : String} {f : RoomFile} (h : st.rooms.get id = some f) (hu : isUuid id = true) :
    st.occupied = fileSize f + (st.without [id]).occupied := by
  have hperm : st.roomFiles.Perm ((id, f) :: (st.without [id]).roomFiles) := by
    have := (IndexMap.shiftRemove_eq_retain st.rooms id ▸ IndexMap.perm_shiftRemove h).filter (fun e : String × RoomFile => isUuid e.1)
    rwa [List.filter_cons_of_pos (by exact hu)] at this
  unfold occupied
  rw [(hperm.map _).sum_nat, List.map_cons, List.sum_cons]

/-- Files that can be removed one after the other. -/
structure Listed (st : Store) (es : List PruneEntry) : Prop where
  files : ∀ e ∈ es, isUuid e.id = true ∧ lowerText e.id = e.id ∧ ∃ f, st.rooms.get e.id = some f ∧ fileSize f = e.size
  nodup : (es.map PruneEntry.id).Nodup

theorem Listed.tail {st : Store} {e : PruneEntry} {es : List PruneEntry} (h : Listed st (e :: es)) :
    Listed (st.without [e.id]) es := by
  obtain ⟨hne, hnodup⟩ := List.nodup_cons.1 (List.map_cons ▸ h.nodup)
  refine ⟨fun x hx => ?_, hnodup⟩
  obtain ⟨hu, hl, f, hf, hs⟩ := h.files x (List.mem_cons_of_mem _ hx)
  refine ⟨hu, hl, f, ?_, hs⟩
  have hx : x.id ≠ e.id := fun he => hne (he ▸ List.mem_map_of_mem hx)
  show (st.rooms.retain _).get x.id = _
  rw [IndexMap.get_retain, hf]
  simp [hx]

section Removing

variable {io : Nat → Bool} (hio : ∀ n, io n = true)

include hio

omit [Extern] in
/-- **Removing a room file and clearing its job list** leaves the store without the room. -/
theorem remove_room (st : Store) {id : String} (hu : isUuid id = true) (hl : lowerText id = id) :
    ∃ n, setJobs io { st with ops := st.ops + 1, rooms := st.rooms.shiftRemove (lowerText id) } id [] =
      ({ st.without [id] with ops := n }, true) := by
  unfold setJobs without
  simp only [hu, hl, hio, List.isEmpty_nil, if_true, Bool.true_eq_false, if_false, IndexMap.shiftRemove_eq_retain]
  split
  · exact ⟨_, rfl⟩
  · rename_i hno
    refine ⟨st.ops + 1, ?_⟩
    rw [← IndexMap.shiftRemove_eq_retain st.notifications, IndexMap.shiftRemove_of_get_none]
    exact IndexMap.contains_eq_false.1 (eq_false_of_ne_true hno)

/-- **The pass removes the shortest prefix that makes room.** -/
theorem pruneLoop_shortest : ∀ (es : List PruneEntry) (st : Store) (gone : List String), Listed st es →
    ∃ removed n, Shortest (fun q => (st.without (q.map PruneEntry.id)).occupied ≤ st.max) es removed ∧
      pruneLoop io es st.occupied st gone =
        ⟨{ st.without (removed.map PruneEntry.id) with ops := n }, gone ++ removed.map PruneEntry.id, true⟩
  | [], st, gone, _ => ⟨[], st.ops, .nil _, by
      unfold pruneLoop
      rw [List.map_nil, without_nil, List.append_nil]⟩
  | e :: es, st, gone, h => by
    unfold pruneLoop
    split
    · rename_i hfits
      refine ⟨[], st.ops, .none _ (by rw [List.map_nil, without_nil]; exact hfits), ?_⟩
      rw [List.map_nil, without_nil, List.append_nil]
    · rename_i hfull
      obtain ⟨hu, hl, f, hf, hsize⟩ := h.files e (List.mem_cons_self ..)
      obtain ⟨m, hm⟩ := remove_room hio st hu hl
      obtain ⟨removed, n, hshort, hloop⟩ :=
        pruneLoop_shortest es { st.without [e.id] with ops := m } (gone ++ [e.id]) ⟨h.tail.files, h.tail.nodup⟩
      have hthere : st.rooms.contains (lowerText e.id) = true := by
        rw [hl]
        exact IndexMap.contains_iff.2 ⟨f, hf⟩
      have hrest : st.occupied - e.size = ({ st.without [e.id] with ops := m } : Store).occupied := by
        rw [occupied_without hf hu, hsize]
        exact Nat.add_sub_cancel_left ..
      -- what goes after `e` goes from the store without it
      have hwithout : ∀ q : List PruneEntry, ({ st.without [e.id] with ops := m } : Store).without (q.map PruneEntry.id) =
          { st.without ((e :: q).map PruneEntry.id) with ops := m } := by
        intro q
        show _ = { st.without ([e.id] ++ q.map PruneEntry.id) with ops := m }
        rw [← without_without]
        rfl
      refine ⟨e :: removed, n, Shortest.cons (by rw [List.map_nil, without_nil]; exact hfull) ?_, ?_⟩
      · simp only [hwithout] at hshort
        exact hshort
      · rw [hio, hthere]
        simp only [Bool.and_self, if_true]
        rw [hm]
        dsimp only
        rw [hrest, hloop, hwithout, List.append_assoc]
        rfl

end Removing

/-- The inactive files in the pass's order can be removed one after the other. -/
theorem inactive_listed {st : Store} (active : List String) (now : Nat)
    (hlower : ∀ id ∈ st.rooms.keys, isUuid id = true → lowerText id = id) {es : List PruneEntry}
    (h : es.Perm (st.inactive active now)) : Listed st es := by
  refine ⟨fun e he => ?_, ?_⟩
  · obtain ⟨f, hf, rfl⟩ := List.mem_map.1 (h.mem_iff.1 he)
    obtain ⟨hf, -⟩ := List.mem_filter.1 hf
    obtain ⟨hf, hu⟩ := List.mem_filter.1 hf
    exact ⟨hu, hlower _ (List.mem_map_of_mem hf) hu, f.2, IndexMap.mem_entries.1 hf, rfl⟩
  · refine ((h.map PruneEntry.id).nodup_iff).2 ?_
    unfold inactive roomFiles
    rw [List.map_map]
    exact st.rooms.nodup.sublist ((List.filter_sublist.trans List.filter_sublist).map Prod.fst)

/-- **Eviction is oldest-first and minimal, and spares live rooms.**  When no file operation fails, a pass over the room
files of a directory removes exactly the shortest prefix of the inactive ones, in the order of their keys, without which
the room files fit the quota, or all of them when nothing less makes room.  It reports their identifiers; their job lists
go from memory and directory, and nothing else does; the files of live rooms stay. -/
theorem eviction_is_minimal {io : Nat → Bool} {st : Store} (active : List String) (now : Nat) (he : st.enabled = true)
    (hio : ∀ n, io n = true) (hlower : ∀ id ∈ st.rooms.keys, isUuid id = true → lowerText id = id) :
    ∃ es removed : List PruneEntry, ∃ n,
      es.Perm (st.inactive active now) ∧ es.Pairwise (fun a b => a.key ≤ b.key) ∧
      Shortest (fun q => (st.without (q.map PruneEntry.id)).occupied ≤ st.max) es removed ∧
      st.prune io active now =
        ⟨{ st.without (removed.map PruneEntry.id) with ops := n }, removed.map PruneEntry.id, true⟩ ∧
      ∀ id ∈ active, (st.prune io active now).store.rooms.get id = st.rooms.get id := by
  have hperm := List.perm_insertionSort (fun a b : PruneEntry => a.le b = true) (st.inactive active now)
  obtain ⟨removed, n, hshort, hloop⟩ := pruneLoop_shortest hio _ st [] (inactive_listed active now hlower hperm)
  have hprune : st.prune io active now =
      ⟨{ st.without (removed.map PruneEntry.id) with ops := n }, removed.map PruneEntry.id, true⟩ := by
    unfold prune
    rw [if_neg (by rw [he]; decide)]
    exact hloop
  refine ⟨_, removed, n, hperm, ?_, hshort, hprune, fun id hid => ?_⟩
  · exact (List.pairwise_insertionSort (fun a b : PruneEntry => a.le b = true) _).imp
      (fun {a b} h => (PruneEntry.le_iff a b).1 h)
  · have hkept : id ∉ removed.map PruneEntry.id := by
      rintro hm
      obtain ⟨e, he, rfl⟩ := List.mem_map.1 hm
      obtain ⟨f, hf, rfl⟩ := List.mem_map.1 (hperm.mem_iff.1 (hshort.isPrefix.subset he))
      have hlive := (List.mem_filter.1 hf).2
      simp only [Bool.not_eq_true', decide_eq_false_iff_not] at hlive
      exact hlive hid
    rw [hprune]
    show (st.rooms.retain _).get id = _
    rw [IndexMap.get_retain]
    cases st.rooms.get id with
    | none => rfl
    | some f => simp only [hkept, decide_false, Bool.not_false, Option.filter_some, if_true]

omit [Extern] in
/-- A corrupt file of 150 bytes and an empty room, of which the quota leaves room for the second. -/
theorem eviction_is_minimal_corrupt :
    letI := Extern.reading []
    let id k := (UuidV4.numbered k).text
    let st : Store := { Store.empty with
      max := 100
      rooms := (IndexMap.empty.insert (id 1) (.record (.obj [("version", .ofNat 1), ("roomId", .str (id 1))]) [])).insert
        (id 2) (.corrupt 150) }
    (st.prune (fun _ => true) [] 0).gone = [id 2] ∧ (st.prune (fun _ => true) [] 0).store.rooms.keys = [id 1] ∧
      ∃ es removed : List PruneEntry, Shortest (fun q => (st.without (q.map PruneEntry.id)).occupied ≤ 100) es removed ∧
        removed.map PruneEntry.id = [id 2] := by
  let _ := Extern.reading []
  intro id st
  have hgone : (st.prune (fun _ => true) [] 0).gone = [id 2] := by decide +kernel
  have hkeys : (st.prune (fun _ => true) [] 0).store.rooms.keys = [id 1] := by decide +kernel
  have hlower : ∀ k ∈ st.rooms.keys, isUuid k = true → lowerText k = k := by decide +kernel
  obtain ⟨es, removed, n, -, -, hshort, hprune, -⟩ := eviction_is_minimal [] 0 rfl (fun _ : Nat => (rfl : true = true)) hlower
  rw [hprune] at hgone
  exact ⟨by rw [hprune]; exact hgone, hkeys, es, removed, hshort, hgone⟩

end Store
end Relay
