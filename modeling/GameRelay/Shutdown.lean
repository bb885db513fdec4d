import GameRelay.Acknowledged
/-!
# Shutdown — what a graceful stop saves (`Server::stop`)

`stop` closes every connection and saves the persistent rooms in the order of the map, until one save fails.  The outcome
of each room's own save is given by its turn (`Writable`); a save that succeeds in its turn is not reached once an earlier
one failed.  **A stop saves all it can exactly when nothing new stands behind a room that cannot be written**
(`shutdown_saves_iff`).
-/
namespace Relay

variable [Extern]

namespace Server

/-- Save the persistent rooms of the list; the first failure is returned. -/
def saveRooms (env : Env) : List Room → Server → Out Server
  | [], s => .ok s
  | r :: rs, s =>
    if r.persistent then
      match s.store.save env.io r with
      | (st, true) => saveRooms env rs { s with store := st }
      | (st, false) => .err { s with store := st }
    else saveRooms env rs s

def stop (env : Env) (s : Server) : Out Server :=
  saveRooms env s.rooms.values (s.connections.keys.foldl (fun s cid => s.close cid 1001 "Server shutting down") s)

omit [Extern] in
/-- The live persistent rooms, in the order of the map. -/
def persistentRooms (s : Server) : List Room := s.rooms.values.filter Room.persistent

end Server

namespace Store

omit [Extern] in
/-- The room's file holds it as it is, its revision in the header. -/
def Saved (st : Store) (r : Room) : Prop := st.rooms.get (lowerText r.id) = some (.record r.header r.state)

omit [Extern] in
/-- Does the room's own save succeed, as the `k`-th attempted from here on? -/
def Writable (io : Nat → Bool) (st : Store) (k : Nat) (r : Room) : Prop := isUuid r.id = true ∧ io (st.ops + k) = true

omit [Extern] in
/-- **A save writes its room's file, or nothing.** -/
theorem save_cases (io : Nat → Bool) (st : Store) (r : Room) :
    (Writable io st 0 r ∧ st.save io r = ({ st with ops := st.ops + 1
                                                    rooms := st.rooms.insert (lowerText r.id) (.record r.header r.state) }, true)) ∨
    (¬ Writable io st 0 r ∧ ∃ st', st.save io r = (st', false) ∧ st'.rooms = st.rooms) := by
  unfold Writable save
  by_cases hu : isUuid r.id = true
  · rw [if_neg (by rw [hu]; decide)]
    by_cases hio : io st.ops = true
    · rw [if_pos hio]
      exact .inl ⟨⟨hu, hio⟩, rfl⟩
    · rw [if_neg hio]
      exact .inr ⟨fun h => hio h.2, _, rfl, rfl⟩
  · rw [if_pos (eq_false_of_ne_true hu)]
    exact .inr ⟨fun h => hu h.1, _, rfl, rfl⟩

end Store

namespace Server

omit [Extern] in
/-- Rooms that are not persistent are passed over. -/
theorem saveRooms_filter (env : Env) : ∀ (rs : List Room) (s : Server),
    saveRooms env rs s = saveRooms env (rs.filter Room.persistent) s
  | [], _ => rfl
  | r :: rs, s => by
    by_cases hp : r.persistent = true
    · rw [List.filter_cons_of_pos hp]
      unfold saveRooms
      rw [if_pos hp, if_pos hp]
      cases hsave : s.store.save env.io r with
      | mk st ok =>
        cases ok with
        | true => exact saveRooms_filter env rs _
        | false => rfl
    · rw [List.filter_cons_of_neg hp, ← saveRooms_filter env rs s]
      conv_lhs => unfold saveRooms
      rw [if_neg hp]

/-- How far the saves came: the first `n` rooms are on file, the next one could not be written, and no other file changed. -/
structure SavedUpTo (env : Env) (rs : List Room) (s t : Server) (n : Nat) : Prop where
  le : n ≤ rs.length
  writable : ∀ i r, i < n → rs[i]? = some r → s.store.Writable env.io i r
  stuck : ∀ r, rs[n]? = some r → ¬ s.store.Writable env.io n r
  saved : ∀ i r, i < n → rs[i]? = some r → t.store.Saved r
  others : ∀ k, k ∉ (rs.take n).map (fun r => lowerText r.id) → t.store.rooms.get k = s.store.rooms.get k

omit [Extern] in
/-- **The saves reach some room, and stop there.** -/
theorem saveRooms_reaches (env : Env) : ∀ (rs : List Room) (s : Server), (∀ r ∈ rs, r.persistent = true) →
    (rs.map (fun r => lowerText r.id)).Nodup → ∃ t n, (saveRooms env rs s).state = some t ∧ SavedUpTo env rs s t n
  | [], s, _, _ => ⟨s, 0, rfl, Nat.le_refl _, (fun _ _ h => nomatch h), (fun _ h => nomatch h), (fun _ _ h => nomatch h),
      fun _ _ => rfl⟩
  | r :: rs, s, hp, hn => by
    obtain ⟨hfresh, hn⟩ := List.nodup_cons.1 hn
    unfold saveRooms
    rw [if_pos (hp r (List.mem_cons_self ..))]
    rcases s.store.save_cases env.io r with ⟨hw, hsave⟩ | ⟨hw, st', hsave, hrooms⟩
    · rw [hsave]
      dsimp only
      obtain ⟨t, n, ht, hreach⟩ := saveRooms_reaches env rs { s with store := { s.store with
        ops := s.store.ops + 1, rooms := s.store.rooms.insert (lowerText r.id) (.record r.header r.state) } }
        (fun x hx => hp x (List.mem_cons_of_mem _ hx)) hn
      -- the turns of the rest, counted from here
      have hturn : ∀ i x, Store.Writable env.io ({ s.store with ops := s.store.ops + 1
                                                                rooms := s.store.rooms.insert (lowerText r.id)
                                                                  (.record r.header r.state) } : Store) i x ↔
          s.store.Writable env.io (i + 1) x := by
        intro i x
        unfold Store.Writable
        rw [show s.store.ops + 1 + i = s.store.ops + (i + 1) by omega]
      have hkept : lowerText r.id ∉ (rs.take n).map (fun r => lowerText r.id) := fun hm =>
        hfresh ((List.take_sublist n rs).map _ |>.subset hm)
      refine ⟨t, n + 1, ht, Nat.succ_le_succ hreach.le, fun i x hi hx => ?_, fun x hx => ?_, fun i x hi hx => ?_,
        fun k hk => ?_⟩
      · cases i with
        | zero => cases hx; exact hw
        | succ i => exact (hturn i x).1 (hreach.writable i x (Nat.lt_of_succ_lt_succ hi) hx)
      · exact fun h => hreach.stuck x hx ((hturn n x).2 h)
      · cases i with
        | zero =>
          cases hx
          unfold Store.Saved
          rw [hreach.others _ hkept]
          exact IndexMap.get_insert_self ..
        | succ i => exact hreach.saved i x (Nat.lt_of_succ_lt_succ hi) hx
      · rw [List.take_succ_cons, List.map_cons, List.mem_cons, not_or] at hk
        rw [hreach.others k hk.2]
        exact IndexMap.get_insert_ne _ _ hk.1
    · rw [hsave]
      exact ⟨_, 0, rfl, Nat.zero_le _, (fun _ _ h => nomatch h), fun x hx => by cases hx; exact hw, (fun _ _ h => nomatch h),
        fun _ _ => congrFun (congrArg IndexMap.get hrooms) _⟩

/-- Live rooms lie under their identifiers, which name different files. -/
def Housed (s : Server) : Prop := ∀ {id r}, s.rooms.get id = some r → r.id = id ∧ lowerText id = id

/-- **Every persistent room whose own save succeeds is on file as it was.** -/
def SavesAll (env : Env) (s t : Server) : Prop :=
  ∀ k r, s.persistentRooms[k]? = some r → s.store.Writable env.io k r → t.store.Saved r

/-- No room that cannot be written stands before one that can be and is not on file already. -/
def Unobstructed (env : Env) (s : Server) : Prop :=
  ∀ i k r r', i < k → s.persistentRooms[i]? = some r → s.persistentRooms[k]? = some r' →
    ¬ s.store.Writable env.io i r → s.store.Writable env.io k r' → s.store.Saved r'

omit [Extern] in
theorem Housed.nodup {s : Server} (h : s.Housed) : (s.persistentRooms.map (fun r => lowerText r.id)).Nodup := by
  have hvalues : (s.rooms.values.map (fun r => lowerText r.id)).Nodup := by
    have hkeys : s.rooms.values.map (fun r => lowerText r.id) = s.rooms.keys := by
      unfold IndexMap.values IndexMap.keys
      rw [List.map_map]
      refine List.map_congr_left (fun e he => ?_)
      obtain ⟨hid, hlow⟩ := h (IndexMap.mem_entries.1 he)
      show lowerText e.2.id = e.1
      rw [hid, hlow]
    rw [hkeys]
    exact s.rooms.nodup
  exact hvalues.sublist (List.filter_sublist.map _)

/-- **A stop saves all it can exactly when nothing obstructs it.** -/
theorem Housed.stop {s : Server} (h : s.Housed) (env : Env) :
    ∃ t, (s.stop env).state = some t ∧ (SavesAll env s t ↔ s.Unobstructed env) := by
  generalize hc : s.connections.keys.foldl (fun s cid => s.close cid 1001 "Server shutting down") s = c
  have hcore : c.toCore = s.toCore := hc ▸ foldl_toCore _ (fun s cid => close_toCore s cid _ _) _ s
  have hstore : c.store = s.store := congrArg Core.store hcore
  obtain ⟨t, n, ht, hreach⟩ := saveRooms_reaches env s.persistentRooms c (fun r hr => (List.mem_filter.1 hr).2) h.nodup
  refine ⟨t, ?_, ?_⟩
  · unfold Server.stop
    rw [hc, saveRooms_filter]
    exact ht
  have hwritable : ∀ k r, c.store.Writable env.io k r ↔ s.store.Writable env.io k r := fun k r => by rw [hstore]
  -- a room not yet reached has the file it had
  have hlater : ∀ k r, n ≤ k → s.persistentRooms[k]? = some r → (t.store.Saved r ↔ s.store.Saved r) := by
    intro k r hk hr
    have hnot : lowerText r.id ∉ (s.persistentRooms.take n).map (fun r => lowerText r.id) := by
      intro hm
      have hsplit := h.nodup
      rw [← List.take_append_drop n s.persistentRooms, List.map_append, List.nodup_append] at hsplit
      have hdrop : r ∈ s.persistentRooms.drop n := by
        refine List.mem_of_getElem? (i := k - n) ?_
        rw [List.getElem?_drop, show n + (k - n) = k by omega]
        exact hr
      exact hsplit.2.2 _ hm _ (List.mem_map_of_mem hdrop) rfl
    unfold Store.Saved
    rw [hreach.others _ hnot, hstore]
  constructor
  · intro hall i k r r' hik hr hr' hno hw
    have hn : n ≤ i := by
      by_contra hlt
      exact hno ((hwritable i r).1 (hreach.writable i r (Nat.lt_of_not_le hlt) hr))
    exact (hlater k r' (by omega) hr').1 (hall k r' hr' hw)
  · intro hfree k r hr hw
    by_cases hk : k < n
    · exact hreach.saved k r hk hr
    · have hlen : k < s.persistentRooms.length := (List.getElem?_eq_some_iff.1 hr).1
      obtain ⟨x, hx⟩ : ∃ x, s.persistentRooms[n]? = some x := ⟨_, List.getElem?_eq_getElem (by omega)⟩
      have hstuck : ¬ s.store.Writable env.io n x := fun h => hreach.stuck x hx ((hwritable n x).2 h)
      have hne : n ≠ k := by
        rintro rfl
        rw [hx] at hr
        cases hr
        exact hstuck hw
      exact (hlater k r (by omega) hr).2 (hfree n k x r (by omega) hx hr hstuck hw)

/-- **Graceful shutdown.**  Every reachable state of a server whose store holds files under their rooms' identifiers is
housed; and a stop of any housed server, whatever its rooms, their order and the rooms that cannot be written, leaves every
persistent room whose own save succeeds on file as it is, exactly when no room that cannot be written stands before one
that can be and is not on file already. -/
theorem shutdown_saves_iff {config : Config} {store : Store} {push : Bool} (hst : store.Filed) :
    (∀ s, Run (fun _ _ _ => True) (boot config store push) s → s.Housed) ∧
    ∀ s : Server, s.Housed → ∀ env, ∃ t, (s.stop env).state = some t ∧ (SavesAll env s t ↔ s.Unobstructed env) := by
  refine ⟨fun s hs => ?_, fun s hs env => hs.stop env⟩
  have hb := boot_base config store push
  have hw : s.world.Filed := Run.invariant (I := World.Filed) (fun env s c a w w' _ _ hb hm hw => hm.filed hb.keyed hw) hs
    hb (boot_filed config push hst)
  exact fun _ _ hr => ⟨(Run.base hs hb).keyed.rooms hr, hw.live hr⟩

end Server

namespace Trace

/-- Two accounts each start a persistent game of their own. -/
def twoGames : List (Env × Command) := started ++
  [(.plain 1, .connected 2), (.plain 1, .tells 2 signUp), (.plain 1, .tells 2 createRoom), (.plain 1, .tells 2 startGame)]

end Trace

namespace Server

omit [Extern] in
/-- When every file can be written, both games are saved. -/
theorem shutdown_saves_iff_two :
    letI := Extern.reading [Trace.signUp, Trace.createRoom, Trace.startGame]
    ∃ s t : Server, Run (fun _ _ _ => True) (boot .default .empty false) s ∧ s.persistentRooms.length = 2 ∧
      (s.stop (Env.plain 2)).state = some t ∧ SavesAll (Env.plain 2) s t := by
  let _ := Extern.reading [Trace.signUp, Trace.createRoom, Trace.startGame]
  have h : (exec (fun _ _ _ => true) Trace.twoGames (boot .default .empty false)).any (fun s =>
      decide (s.persistentRooms.length = 2) && s.persistentRooms.all (fun r => isUuid r.id)) = true := by
    decide +kernel
  obtain ⟨s, hs, h⟩ := (Option.any_eq_true _ _).1 h
  simp only [Bool.and_eq_true, decide_eq_true_eq] at h
  have hrun : Run (fun _ _ _ => True) (boot .default .empty false) s := exec_run (fun _ _ _ _ => trivial) hs
  obtain ⟨hhoused, hstop⟩ := @shutdown_saves_iff _ .default .empty false empty_filed
  obtain ⟨t, ht, hiff⟩ := hstop s (hhoused s hrun) (Env.plain 2)
  refine ⟨s, t, hrun, h.1, ht, hiff.2 (fun i k r r' _ hr _ hno _ => absurd ⟨?_, rfl⟩ hno)⟩
  exact List.all_eq_true.1 h.2 r (List.mem_of_getElem? hr)

omit [Extern] in
/-- **A room that cannot be written costs the next one its state**: the first of two games cannot be saved, and the second
one, which could be, is not. -/
theorem stop_skips_the_rest :
    letI := Extern.reading [Trace.signUp, Trace.createRoom, Trace.startGame]
    ∃ s t : Server, Run (fun _ _ _ => True) (boot .default .empty false) s ∧
      (s.stop { Env.plain 2 with io := fun n => decide (n ≠ s.store.ops) }).state = some t ∧
      ¬ SavesAll { Env.plain 2 with io := fun n => decide (n ≠ s.store.ops) } s t := by
  let _ := Extern.reading [Trace.signUp, Trace.createRoom, Trace.startGame]
  have h : (exec (fun _ _ _ => true) Trace.twoGames (boot .default .empty false)).any (fun s =>
      (s.persistentRooms[1]?).any (fun r => isUuid r.id &&
        (s.stop { Env.plain 2 with io := fun n => decide (n ≠ s.store.ops) }).state.any
          (fun t => (t.store.rooms.get (lowerText r.id)).isNone))) = true := by
    decide +kernel
  obtain ⟨s, hs, h⟩ := (Option.any_eq_true _ _).1 h
  obtain ⟨r, hr, h⟩ := (Option.any_eq_true _ _).1 h
  obtain ⟨huuid, ht⟩ := (Bool.and_eq_true _ _).mp h
  obtain ⟨t, ht, hnone⟩ := (Option.any_eq_true _ _).1 ht
  refine ⟨s, t, exec_run (fun _ _ _ _ => trivial) hs, ht, fun hall => ?_⟩
  have hsaved := hall 1 r hr ⟨huuid, decide_eq_true (by omega)⟩
  unfold Store.Saved at hsaved
  rw [hsaved] at hnone
  cases hnone

end Server
end Relay
