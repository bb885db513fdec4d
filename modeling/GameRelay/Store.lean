import Mathlib
import GameRelay.Model
/-!
# Store — the session directory and the job lists (`store.rs`)

A file is what was written to it: an account's JSON, a room's header and state, a room's job list.  A room file that
does not parse is `corrupt`.  Every file operation that changes the directory asks the step's `io` whether it succeeds
(`ops` counts them); one that fails leaves the file as it was.
-/
namespace Relay

open Value (ofNat strs)

inductive RoomFile where
  | record (header : Value) (state : Bytes)
  | corrupt (size : Nat)

structure Store where
  enabled : Bool
  max : Nat
  rooms : IndexMap String RoomFile
  accounts : IndexMap String (Option Value)
  notifications : IndexMap String (List Value)
  jobs : IndexMap String (List Value)
  ops : Nat

namespace Store

variable [Extern]

/-- The longest header `load` reads. -/
def headerMax : Nat := 1024 * 1024

/-- `retryAt` of a scheduled job that was delivered. -/
def delivered : Value := ofNat 9007199254740991

def deviceFile (e : String × Value) : Value := .arr [.str e.1, e.2.set "foreground" (.bool false)]

def accountFile (p : Player) : Value :=
  .obj [("id", .str p.id), ("name", .str p.name), ("password", .str p.password),
    ("devices", .arr (p.devices.entries.map deviceFile))]

def saveAccount (io : Nat → Bool) (st : Store) (p : Player) : Store × Bool :=
  if st.enabled = false then (st, true)
  else if isUuid p.id = false then (st, false)
  else if io st.ops then
    ({ st with ops := st.ops + 1, accounts := st.accounts.insert (lowerText p.id) (some (accountFile p)) }, true)
  else ({ st with ops := st.ops + 1 }, false)

def accountDevices : List Value → IndexMap String Value → IndexMap String Value
  | [], m => m
  | d :: ds, m => accountDevices ds (match (d.item 0).asStr with | none => m | some id => m.insert id (d.item 1))

def accountPlayer (v : Value) (id : String) (now : Nat) : Player :=
  { Player.new (((v.idx "id").asStr).getD id) (((v.idx "password").asStr).getD "")
      (((v.idx "name").asStr).getD "Player") now with
    devices := accountDevices (((v.idx "devices").asArray).getD []) IndexMap.empty }

/-- The stored account of an identifier in either letter case; `error` when its file does not parse. -/
def account (st : Store) (id : String) (now : Nat) : Except Unit (Option Player) :=
  if st.enabled = false then .ok none
  else if isUuid id = false then .error ()
  else match st.accounts.get (lowerText id) with
    | none => .ok none
    | some none => .error ()
    | some (some v) => .ok (some (accountPlayer v id now))

def save (io : Nat → Bool) (st : Store) (r : Room) : Store × Bool :=
  if isUuid r.id = false then (st, false)
  else if io st.ops then
    ({ st with ops := st.ops + 1, rooms := st.rooms.insert (lowerText r.id) (.record r.header r.state) }, true)
  else ({ st with ops := st.ops + 1 }, false)

/-- The strings of an array, in order, as a set. -/
def stringSet (v : Value) : IndexSet String :=
  (((v.asArray).getD []).filterMap Value.asStr).foldl IndexSet.insert IndexSet.empty

def roomOf (v : Value) (id : String) (now : Nat) : Room :=
  { Room.new id (((v.idx "name").asStr).getD "") (((v.idx "ownerId").asStr).getD "")
      (((v.idx "maxPlayers").asU64).getD 1) (v.idx "password") (v.idx "gameData") now with
    metadata := v.idx "metaData"
    start := v.idx "startData"
    generation := ((v.idx "generation").asU64).getD 0
    binary := decide (v.idx "binaryRelay" = .bool true)
    revision := ((v.idx "revision").asU64).getD 0
    updated := ((v.idx "updatedAt").asU64).getD 0
    started := true
    fixed := true
    migration := true
    persistent := true
    players := stringSet (v.idx "players")
    events := stringSet (v.idx "events") }

def headerLen (h : Value) : Nat := (Extern.toVec h).length

/-- The saved room of an identifier; `error` when its file is not one this version wrote under that identifier. -/
def load (st : Store) (id : String) (body : Bool) (now : Nat) : Except Unit (Option Room) :=
  if st.enabled = false then .ok none
  else if isUuid id = false then .error ()
  else match st.rooms.get (lowerText id) with
    | none => .ok none
    | some (.corrupt _) => .error ()
    | some (.record h state) =>
      if headerMax < headerLen h then .error ()
      else if h.idx "version" ≠ ofNat 1 ∨ h.idx "roomId" ≠ .str id then .error ()
      else .ok (some { roomOf h id now with state := if body then state else [] })

def setJobs (io : Nat → Bool) (st : Store) (id : String) (jobs : List Value) : Store × Bool :=
  if isUuid id = false then (st, false)
  else if jobs.isEmpty then
    if st.notifications.contains (lowerText id) then
      if io st.ops then
        ({ st with ops := st.ops + 1, notifications := st.notifications.shiftRemove (lowerText id),
                   jobs := st.jobs.shiftRemove id }, true)
      else ({ st with ops := st.ops + 1 }, false)
    else ({ st with jobs := st.jobs.shiftRemove id }, true)
  else if io st.ops then
    ({ st with ops := st.ops + 1, notifications := st.notifications.insert (lowerText id) jobs,
               jobs := st.jobs.insert id jobs }, true)
  else ({ st with ops := st.ops + 1 }, false)

/-- Two notices are the same occurrence of an event. -/
def sameNotice (a b : Value) : Bool := decide (a.idx "eventId" = b.idx "eventId") && decide (a.idx "at" = b.idx "at")

/-- A job of a notice nobody has been sent yet. -/
def newJob (n : Value) (scheduled : Bool) : Value :=
  ((n.set "done" (.arr [])).set "retryAt" (ofNat 0)).set "scheduled" (.bool scheduled)

/-- Jobs a commit keeps whatever it schedules: immediate ones not yet delivered. -/
def retained (j : Value) : Bool :=
  decide (j.idx "scheduled" ≠ .bool true) && decide (j.idx "retryAt" ≠ delivered)

/-- A commit passes over a notice that is absent, already known or already queued. -/
def noticeSkipped (events : IndexSet String) (jobs : List Value) (n : Value) : Bool :=
  n.isNull || events.contains (((n.idx "eventId").asStr).getD "") ||
    jobs.any (fun j => decide (j.idx "eventId" = n.idx "eventId"))

def addNotice (events : IndexSet String) (previous jobs : List Value) (n : Value) (scheduled : Bool) : List Value :=
  if noticeSkipped events jobs n then jobs
  else jobs ++ [(previous.find? (fun j => sameNotice j n)).getD (newJob n scheduled)]

def commitJobs (events : IndexSet String) (previous : List Value) (scheduled immediate : Value) : List Value :=
  addNotice events previous (addNotice events previous (previous.filter retained) scheduled true) immediate false

def commit (io : Nat → Bool) (st : Store) (r : Room) (scheduled immediate : Value) : Store × Bool :=
  setJobs io st r.id (commitJobs r.events ((st.jobs.get r.id).getD []) scheduled immediate)

/-- `fs::Metadata::len` of a room file: the length prefix, the header and the state. -/
def fileSize : RoomFile → Nat
  | .record h state => 4 + headerLen h + state.length
  | .corrupt n => n

/-- An inactive room file as `prune` orders it: last update (`none` when unreadable), ID, size. -/
structure PruneEntry where
  updated : Option Nat
  id : String
  size : Nat

def PruneEntry.le (a b : PruneEntry) : Bool :=
  match a.updated, b.updated with
  | none, some _ => true
  | some _, none => false
  | none, none => decide (a.id < b.id) || (decide (a.id = b.id) && decide (a.size ≤ b.size))
  | some x, some y =>
    decide (x < y) || (decide (x = y) &&
      (decide (a.id < b.id) || (decide (a.id = b.id) && decide (a.size ≤ b.size))))

def pruneEntry (st : Store) (now : Nat) (e : String × RoomFile) : PruneEntry where
  updated := match st.load e.1 false now with
    | .ok (some r) => some r.updated
    | _ => none
  id := e.1
  size := fileSize e.2

/-- What a pruning pass leaves: the store, the rooms whose file is gone, and whether every operation succeeded. -/
structure Pruned where
  store : Store
  gone : List String
  ok : Bool

def pruneLoop (io : Nat → Bool) : List PruneEntry → Nat → Store → List String → Pruned
  | [], _, st, gone => ⟨st, gone, true⟩
  | e :: es, total, st, gone =>
    if total ≤ st.max then ⟨st, gone, true⟩
    else if io st.ops && st.rooms.contains (lowerText e.id) then
      let st := { st with ops := st.ops + 1, rooms := st.rooms.shiftRemove (lowerText e.id) }
      match setJobs io st e.id [] with
      | (st, true) => pruneLoop io es (total - e.size) st (gone ++ [e.id])
      | (st, false) => ⟨st, gone ++ [e.id], false⟩
    else ⟨{ st with ops := st.ops + 1 }, gone, false⟩

/-- Evict inactive rooms, oldest state first, until the room files fit the quota. -/
def prune (io : Nat → Bool) (st : Store) (active : List String) (now : Nat) : Pruned :=
  if st.enabled = false then ⟨st, [], true⟩
  else
    let files := st.rooms.entries.filter (fun e => isUuid e.1)
    let entries := (files.filter (fun e => !decide (e.1 ∈ active))).map (pruneEntry st now)
    pruneLoop io (entries.insertionSort (fun a b => a.le b = true)) ((files.map (fun e => fileSize e.2)).sum) st []

omit [Extern] in
/-- **An account write touches neither rooms nor jobs.** -/
theorem saveAccount_files (io : Nat → Bool) (st : Store) (p : Player) :
    (saveAccount io st p).1.rooms = st.rooms ∧ (saveAccount io st p).1.jobs = st.jobs ∧
      (saveAccount io st p).1.notifications = st.notifications ∧ (saveAccount io st p).1.enabled = st.enabled := by
  unfold saveAccount
  split
  · exact ⟨rfl, rfl, rfl, rfl⟩
  · split
    · exact ⟨rfl, rfl, rfl, rfl⟩
    · split <;> exact ⟨rfl, rfl, rfl, rfl⟩

omit [Extern] in
theorem setJobs_files (io : Nat → Bool) (st : Store) (id : String) (jobs : List Value) :
    (setJobs io st id jobs).1.rooms = st.rooms ∧ (setJobs io st id jobs).1.accounts = st.accounts ∧
      (setJobs io st id jobs).1.enabled = st.enabled := by
  unfold setJobs
  repeat' split
  all_goals exact ⟨rfl, rfl, rfl⟩

omit [Extern] in
theorem setJobs_max (io : Nat → Bool) (st : Store) (id : String) (jobs : List Value) :
    (setJobs io st id jobs).1.max = st.max := by
  unfold setJobs
  repeat' split
  all_goals rfl

omit [Extern] in
/-- Clearing a job list drops it from memory or, when the file cannot be removed, leaves it. -/
theorem setJobs_nil (io : Nat → Bool) (st : Store) (id : String) :
    (setJobs io st id []).1.jobs = st.jobs ∨ (setJobs io st id []).1.jobs = st.jobs.shiftRemove id := by
  unfold setJobs
  simp only [List.isEmpty_nil, if_true]
  repeat' split
  all_goals first | exact .inl rfl | exact .inr rfl

omit [Extern] in
/-- What a save leaves: the file, when it succeeds, and nothing else new. -/
theorem save_spec {io : Nat → Bool} {st st' : Store} {r : Room} {ok : Bool} (h : save io st r = (st', ok)) :
    st'.jobs = st.jobs ∧ st'.accounts = st.accounts ∧ st'.enabled = st.enabled ∧ st'.max = st.max ∧
      st'.rooms = if ok then st.rooms.insert (lowerText r.id) (.record r.header r.state) else st.rooms := by
  unfold save at h
  split at h
  · cases h; exact ⟨rfl, rfl, rfl, rfl, rfl⟩
  · split at h
    · cases h; exact ⟨rfl, rfl, rfl, rfl, rfl⟩
    · cases h; exact ⟨rfl, rfl, rfl, rfl, rfl⟩

omit [Extern] in
theorem commit_failed {io : Nat → Bool} {st st' : Store} {r : Room} {a b : Value} (h : commit io st r a b = (st', false)) :
    st'.rooms = st.rooms ∧ st'.jobs = st.jobs := by
  unfold commit setJobs at h
  repeat' split at h
  all_goals cases h
  all_goals exact ⟨rfl, rfl⟩

omit [Extern] in
/-- A successful commit puts exactly `commitJobs` under the room; an empty list is an absent one. -/
theorem commit_spec {io : Nat → Bool} {st st' : Store} {r : Room} {a b : Value} (h : commit io st r a b = (st', true)) :
    st'.rooms = st.rooms ∧ (fun id => (st'.jobs.get id).getD []) =
      Function.update (fun id => (st.jobs.get id).getD []) r.id (commitJobs r.events ((st.jobs.get r.id).getD []) a b) := by
  unfold commit at h
  generalize commitJobs r.events ((st.jobs.get r.id).getD []) a b = jobs at h
  unfold setJobs at h
  split at h
  · cases h
  split at h
  · rename_i hjobs
    have key : st'.rooms = st.rooms ∧ st'.jobs = st.jobs.shiftRemove r.id := by
      split at h
      · split at h
        · cases h; exact ⟨rfl, rfl⟩
        · cases h
      · cases h; exact ⟨rfl, rfl⟩
    refine ⟨key.1, ?_⟩
    funext x
    rw [key.2, IndexMap.get_shiftRemove, Function.update_apply, List.isEmpty_iff.1 hjobs]
    split <;> rfl
  · split at h
    · cases h
      refine ⟨rfl, ?_⟩
      funext x
      show ((st.jobs.insert r.id jobs).get x).getD [] = _
      rw [IndexMap.get_insert, Function.update_apply]
      split <;> rfl
    · cases h

/-- What a pruning pass from `st` leaves: files of some entries are gone, and some of their job lists. -/
structure PruneSpec (st : Store) (ids : List String) (gone : List String) (p : Pruned) : Prop where
  enabled : p.store.enabled = st.enabled
  max : p.store.max = st.max
  accounts : p.store.accounts = st.accounts
  evicts : ∃ new cleared, p.gone = gone ++ new ∧ new ⊆ ids ∧ cleared ⊆ new ∧
    (p.store.rooms.get = fun k => if k ∈ new.map lowerText then none else st.rooms.get k) ∧
    (p.store.jobs.get = fun x => if x ∈ cleared then none else st.jobs.get x)

omit [Extern] in
theorem PruneSpec.stop (st st' : Store) (ids gone : List String) (ok : Bool) (he : st'.enabled = st.enabled)
    (hm : st'.max = st.max) (ha : st'.accounts = st.accounts) (hr : st'.rooms = st.rooms) (hj : st'.jobs = st.jobs) :
    PruneSpec st ids gone ⟨st', gone, ok⟩ := by
  refine ⟨he, hm, ha, [], [], (List.append_nil _).symm, List.nil_subset _, List.nil_subset _, ?_, ?_⟩
  · show st'.rooms.get = _; rw [hr]; funext k; simp
  · show st'.jobs.get = _; rw [hj]; funext k; simp

omit [Extern] in
/-- One eviction, then the rest of the pass. -/
theorem PruneSpec.evict {st st₁ : Store} {ids gone : List String} {id : String} {p : Pruned}
    (he : st₁.enabled = st.enabled) (hm : st₁.max = st.max) (ha : st₁.accounts = st.accounts)
    (hr : st₁.rooms = st.rooms.shiftRemove (lowerText id))
    (hj : st₁.jobs = st.jobs ∨ st₁.jobs = st.jobs.shiftRemove id) (h : PruneSpec st₁ ids (gone ++ [id]) p) :
    PruneSpec st (id :: ids) gone p := by
  obtain ⟨new, cleared, hg, hi, hc, hrooms, hjobs⟩ := h.evicts
  have rooms : p.store.rooms.get = fun k => if k ∈ (id :: new).map lowerText then none else st.rooms.get k := by
    rw [hrooms, hr]
    funext k
    rw [IndexMap.get_shiftRemove, List.map_cons]
    by_cases h1 : k ∈ new.map lowerText
    · simp [h1]
    · by_cases h2 : k = lowerText id
      · simp [h2]
      · simp [h1, h2]
  refine ⟨h.enabled.trans he, h.max.trans hm, h.accounts.trans ha, ?_⟩
  rcases hj with hj | hj
  · exact ⟨id :: new, cleared, by rw [hg, List.append_assoc]; rfl, List.cons_subset_cons _ hi,
      fun x hx => List.mem_cons_of_mem _ (hc hx), rooms, by rw [hjobs, hj]⟩
  · refine ⟨id :: new, id :: cleared, by rw [hg, List.append_assoc]; rfl, List.cons_subset_cons _ hi,
      List.cons_subset_cons _ hc, rooms, ?_⟩
    rw [hjobs, hj]
    funext k
    rw [IndexMap.get_shiftRemove]
    by_cases h1 : k ∈ cleared
    · simp [h1]
    · by_cases h2 : k = id
      · simp [h2]
      · simp [h1, h2]

omit [Extern] in
theorem pruneLoop_spec (io : Nat → Bool) : ∀ (es : List PruneEntry) (total : Nat) (st : Store) (gone : List String),
    PruneSpec st (es.map (·.id)) gone (pruneLoop io es total st gone)
  | [], _, st, gone => .stop st st _ gone true rfl rfl rfl rfl rfl
  | e :: es, total, st, gone => by
    unfold pruneLoop
    split
    · exact .stop st st _ gone true rfl rfl rfl rfl rfl
    · split
      · let st₁ : Store := { st with ops := st.ops + 1, rooms := st.rooms.shiftRemove (lowerText e.id) }
        have hf := setJobs_files io st₁ e.id []
        have hj := setJobs_nil io st₁ e.id
        have hm := setJobs_max io st₁ e.id []
        dsimp only
        split
        · rename_i st₂ hs
          rw [hs] at hf hj hm
          exact .evict hf.2.2 hm hf.2.1 hf.1 hj (pruneLoop_spec io es _ st₂ _)
        · rename_i st₂ hs
          rw [hs] at hf hj hm
          exact .evict hf.2.2 hm hf.2.1 hf.1 hj (.stop st₂ st₂ _ _ false rfl rfl rfl rfl rfl)
      · exact .stop st _ _ gone false rfl rfl rfl rfl rfl

/-- **Pruning touches only files of rooms that are not live.** -/
theorem prune_spec (io : Nat → Bool) (st : Store) (active : List String) (now : Nat) :
    ∃ ids, (∀ x ∈ ids, x ∉ active ∧ (st.rooms.get x).isSome) ∧ PruneSpec st ids [] (prune io st active now) := by
  unfold prune
  split
  · exact ⟨[], (fun _ h => absurd h List.not_mem_nil), .stop st st _ [] true rfl rfl rfl rfl rfl⟩
  · refine ⟨_, fun x hx => ?_, pruneLoop_spec io _ _ st []⟩
    obtain ⟨e, he, rfl⟩ := List.mem_map.1 hx
    rw [List.mem_insertionSort] at he
    obtain ⟨f, hf, rfl⟩ := List.mem_map.1 he
    rw [List.mem_filter, List.mem_filter] at hf
    show f.1 ∉ active ∧ (st.rooms.get f.1).isSome
    refine ⟨by simpa using hf.2, ?_⟩
    rw [IndexMap.mem_entries.1 hf.1.1]
    rfl

theorem load_ok {st : Store} {id : String} {body : Bool} {now : Nat} {r : Room}
    (h : st.load id body now = .ok (some r)) :
    isUuid id = true ∧ ∃ hd state, st.rooms.get (lowerText id) = some (.record hd state) ∧
      hd.idx "roomId" = .str id ∧ headerLen hd ≤ headerMax ∧
      r = { roomOf hd id now with state := if body then state else [] } := by
  unfold load at h
  split at h
  · cases h
  split at h
  · cases h
  rename_i hu
  split at h
  · cases h
  · cases h
  rename_i hd state hg
  split at h
  · cases h
  rename_i hlen
  split at h
  · cases h
  rename_i hid
  simp only [Except.ok.injEq, Option.some.injEq] at h
  exact ⟨by simpa using hu, hd, state, hg, by simpa using (not_or.1 hid).2, by omega, h.symm⟩

/-- A loaded room is a started, persistent, fixed-roster room with nobody in it. -/
theorem load_shape {st : Store} {id : String} {body : Bool} {now : Nat} {r : Room}
    (h : st.load id body now = .ok (some r)) :
    r.id = id ∧ r.active = IndexSet.empty ∧ r.upload = none ∧ r.started = true ∧ r.fixed = true ∧
      r.migration = true ∧ r.persistent = true := by
  obtain ⟨-, hd, state, -, -, -, rfl⟩ := load_ok h
  exact ⟨rfl, rfl, rfl, rfl, rfl, rfl, rfl⟩

end Store
end Relay
