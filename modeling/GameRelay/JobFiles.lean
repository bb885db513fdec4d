import GameRelay.Disk
import GameRelay.Downloads
import GameRelay.JobLists
/-!
# JobFiles — the two copies of a job list (`Store::set_jobs`, `Store::commit`, `commitSession`)

A job list stands in memory and in a file that `atomic` writes operation by operation.  `Copies.setJobs` is `set_jobs`
over those operations, any of which may fail: **the copies change together or not at all** (`Copies.setJobs_spec`), which
is what `Store.setJobs` says with a single operation (`Mirrors.setJobs`).  On it rests that a commit which could not be
stored leaves its room as it was.
-/
namespace Relay

open Function (update)

namespace Disk

variable [Extern]

/-- The job lists in memory and the files of the directory. -/
structure Copies where
  disk : Disk
  jobs : IndexMap String (List Value)

/-- `set_jobs`, of whose file operations the first `done` succeed and the next one fails; `writes` are the writes the
list's text is written in. -/
def Copies.setJobs (writes : List Bytes) (done : Nat) (c : Copies) (id : String) (jobs : List Value) : Copies × Bool :=
  match FileName.path .notifications id with
  | none => (c, false)
  | some n =>
    if jobs.isEmpty then
      if (c.disk n).isSome then
        if done = 0 then (c, false) else (⟨(Op.unlink n).apply c.disk, c.jobs.shiftRemove id⟩, true)
      else (⟨c.disk, c.jobs.shiftRemove id⟩, true)
    else
      let disk := ((atomic n writes).take done).foldl Op.apply c.disk
      if (atomic n writes).length ≤ done then (⟨disk, c.jobs.insert id jobs⟩, true) else (⟨disk, c.jobs⟩, false)

/-- `Store::commit` over the same operations. -/
def Copies.commit (writes : List Bytes) (done : Nat) (c : Copies) (r : Room) (scheduled immediate : Value) : Copies × Bool :=
  c.setJobs writes done r.id (Store.commitJobs r.events ((c.jobs.get r.id).getD []) scheduled immediate)

/-- The file that holds a list; there is none for an empty one. -/
def listFile (jobs : List Value) : Option Bytes := if jobs.isEmpty then none else some (Extern.toVec (.arr jobs))

omit [Extern] in
/-- The list in memory; an empty one is not kept. -/
def listKept (jobs : List Value) : Option (List Value) := if jobs.isEmpty then none else some jobs

/-- **The two copies of a list change together**: both hold it, or each is what it was; no other list and no other final
file changes. -/
structure Together (c : Copies) (id : String) (n : FileName) (jobs : List Value) (r : Copies × Bool) : Prop where
  stored : r.2 = true → r.1.jobs.get id = listKept jobs ∧ r.1.disk n = listFile jobs
  refused : r.2 = false → r.1.jobs = c.jobs ∧ r.1.disk n = c.disk n
  others : ∀ x, x ≠ id → r.1.jobs.get x = c.jobs.get x
  files : ∀ m, m ≠ n → m ≠ n.tmp → r.1.disk m = c.disk m

/-- **Whatever operation fails, the copies stay in step.** -/
theorem Copies.setJobs_spec {writes : List Bytes} (c : Copies) (done : Nat) {id : String} {n : FileName} {jobs : List Value}
    (hn : FileName.path .notifications id = some n) (hw : writes.flatten = Extern.toVec (.arr jobs)) :
    Together c id n jobs (c.setJobs writes done id jobs) := by
  have htmp := FileName.path_ne_tmp hn n
  unfold Copies.setJobs
  rw [hn]
  dsimp only
  by_cases hjobs : jobs.isEmpty = true
  · rw [if_pos hjobs]
    have hkept : listKept jobs = none := if_pos hjobs
    split
    · split
      · exact ⟨nofun, fun _ => ⟨rfl, rfl⟩, fun _ _ => rfl, fun _ _ _ => rfl⟩
      · refine ⟨fun _ => ⟨?_, ?_⟩, nofun, fun x hx => ?_, fun m hm _ => Function.update_of_ne hm _ _⟩
        · rw [hkept, IndexMap.get_shiftRemove, if_pos rfl]
        · rw [listFile, if_pos hjobs]
          exact Function.update_self ..
        · rw [IndexMap.get_shiftRemove, if_neg hx]
    · rename_i hnone
      refine ⟨fun _ => ⟨?_, ?_⟩, nofun, fun x hx => ?_, fun _ _ _ => rfl⟩
      · rw [hkept, IndexMap.get_shiftRemove, if_pos rfl]
      · rw [listFile, if_pos hjobs]
        exact Option.not_isSome_iff_eq_none.1 hnone
      · rw [IndexMap.get_shiftRemove, if_neg hx]
  · rw [if_neg hjobs]
    have hkept : listKept jobs = some jobs := if_neg hjobs
    have hfinal := fun {m : FileName} (hm : m ≠ n.tmp) => atomic_final hm writes done c.disk
    split
    · rename_i hall
      refine ⟨fun _ => ⟨?_, ?_⟩, nofun, fun x hx => ?_, fun m hm ht => ?_⟩
      · rw [hkept, IndexMap.get_insert_self]
      · rw [listFile, if_neg hjobs, ← hw]
        exact (hfinal htmp).trans (if_pos ⟨hall, rfl⟩)
      · rw [IndexMap.get_insert_ne _ _ hx]
      · exact (hfinal ht).trans (if_neg (fun h => hm h.2))
    · rename_i hsome
      refine ⟨nofun, fun _ => ⟨rfl, ?_⟩, fun _ _ => rfl, fun m hm ht => ?_⟩
      · exact (hfinal htmp).trans (if_neg (fun h => hsome h.1))
      · exact (hfinal ht).trans (if_neg (fun h => hm h.2))

/-! The store's single operation stands for them. -/

/-- The store's lists are the copies. -/
structure Mirrors (c : Copies) (st : Store) : Prop where
  jobs : c.jobs = st.jobs
  files : ∀ id n, FileName.path .notifications id = some n →
    c.disk n = (st.notifications.get (lowerText id)).map (fun l => Extern.toVec (.arr l))

/-- Did all operations of `set_jobs` succeed? -/
def finished (writes : List Bytes) (done : Nat) (n : FileName) (jobs : List Value) : Bool :=
  if jobs.isEmpty then decide (done ≠ 0) else decide ((atomic n writes).length ≤ done)

omit [Extern] in
theorem path_some {id : String} {n : FileName} (h : FileName.path .notifications id = some n) :
    isUuid id = true ∧ n = ⟨.notifications, lowerText id ++ "." ++ Folder.notifications.extension⟩ := by
  unfold FileName.path at h
  split at h
  · rename_i hu
    cases h
    exact ⟨hu, rfl⟩
  · cases h

omit [Extern] in
/-- A path names its identifier, but for its letters' case. -/
theorem path_inj {id id' : String} {n : FileName} (h : FileName.path .notifications id = some n)
    (h' : FileName.path .notifications id' = some n) : lowerText id = lowerText id' := by
  have he := (path_some h).2.symm.trans (path_some h').2
  have hname : lowerText id ++ "." ++ Folder.notifications.extension = lowerText id' ++ "." ++ Folder.notifications.extension :=
    congrArg FileName.name he
  have hlist := congrArg String.toList hname
  simp only [String.toList_append, List.append_assoc] at hlist
  exact String.toList_inj.1 (List.append_cancel_right hlist)

/-- A change of one list's file. -/
theorem Mirrors.files_of {c : Copies} {st : Store} (h : Mirrors c st) {id : String} {n : FileName}
    (hn : FileName.path .notifications id = some n) {disk : Disk} {notifications : IndexMap String (List Value)}
    (hdisk : ∀ m, m ≠ n → m ≠ n.tmp → disk m = c.disk m)
    (hself : disk n = (notifications.get (lowerText id)).map (fun l => Extern.toVec (.arr l)))
    (hothers : ∀ x, x ≠ lowerText id → notifications.get x = st.notifications.get x) :
    ∀ x m, FileName.path .notifications x = some m →
      disk m = (notifications.get (lowerText x)).map (fun l => Extern.toVec (.arr l)) := by
  intro x m hx
  by_cases he : lowerText x = lowerText id
  · rw [he, show m = n by rw [(path_some hx).2, (path_some hn).2, he]]
    exact hself
  · rw [hothers _ he, hdisk m (fun hm => he (path_inj (hm ▸ hx) hn)) (FileName.path_ne_tmp hx n)]
    exact h.files x m hx

/-- **The store's one operation on a list stands for all of them**, successful when none fails. -/
theorem Mirrors.setJobs {c : Copies} {st : Store} (h : Mirrors c st) {writes : List Bytes} (done : Nat) {id : String}
    {n : FileName} {jobs : List Value} (hn : FileName.path .notifications id = some n)
    (hw : writes.flatten = Extern.toVec (.arr jobs)) :
    Mirrors (c.setJobs writes done id jobs).1 (st.setJobs (fun _ => finished writes done n jobs) id jobs).1 ∧
      (c.setJobs writes done id jobs).2 = (st.setJobs (fun _ => finished writes done n jobs) id jobs).2 := by
  have hspec := c.setJobs_spec done hn hw
  unfold Copies.setJobs at hspec ⊢
  rw [hn] at hspec ⊢
  dsimp only at hspec ⊢
  unfold Store.setJobs finished
  have hu : ¬ isUuid id = false := by rw [(path_some hn).1]; decide
  simp only [if_neg hu]
  by_cases hjobs : jobs.isEmpty = true
  · have hfile : (c.disk n).isSome = st.notifications.contains (lowerText id) := by
      rw [h.files id n hn, Option.isSome_map]
      rfl
    have hlist : listFile jobs = none := if_pos hjobs
    simp only [if_pos hjobs, hfile] at hspec ⊢
    cases hin : st.notifications.contains (lowerText id) with
    | false => exact ⟨⟨congrArg (·.shiftRemove id) h.jobs, h.files⟩, rfl⟩
    | true =>
      simp only [hin, if_true] at hspec ⊢
      by_cases hdone : done = 0
      · simp only [hdone, ne_eq, not_true_eq_false, decide_false, Bool.false_eq_true, if_true, if_false]
        exact ⟨⟨h.jobs, h.files⟩, trivial⟩
      · simp only [hdone, ne_eq, not_false_eq_true, decide_true, if_true, if_false] at hspec ⊢
        refine ⟨⟨congrArg (·.shiftRemove id) h.jobs, h.files_of hn hspec.files ?_ (fun x hx => ?_)⟩, trivial⟩
        · rw [IndexMap.get_shiftRemove, if_pos rfl, (hspec.stored rfl).2, hlist]
          rfl
        · rw [IndexMap.get_shiftRemove, if_neg hx]
  · have hlist : listFile jobs = some (Extern.toVec (.arr jobs)) := if_neg hjobs
    simp only [if_neg hjobs] at hspec ⊢
    by_cases hdone : (atomic n writes).length ≤ done
    · simp only [hdone, decide_true, if_true] at hspec ⊢
      refine ⟨⟨congrArg (·.insert id jobs) h.jobs, h.files_of hn hspec.files ?_ (fun x hx => ?_)⟩, trivial⟩
      · rw [IndexMap.get_insert_self, (hspec.stored rfl).2, hlist]
        rfl
      · rw [IndexMap.get_insert_ne _ _ hx]
    · simp only [hdone, decide_false, Bool.false_eq_true, if_false] at hspec ⊢
      refine ⟨⟨h.jobs, h.files_of hn hspec.files ?_ (fun _ _ => rfl)⟩, trivial⟩
      rw [(hspec.refused rfl).2]
      exact h.files id n hn

end Disk

/-! Commits that could not be stored. -/

namespace Server

variable [Extern]

theorem Requests.commits {t : Server} {cid : Nat} {p id : String} {v : Value} {r : Room}
    (h : t.Requests cid p id "commitSession" v) (env : Env) (hr : t.rooms.get id = some r) :
    t.handle env cid p v = mapOut (putBack id) ((t.takeRoom id).session env p r "commitSession" (v.idx "data")) := by
  obtain ⟨txt, hv⟩ := h.valid
  obtain ⟨a, ha, hroom⟩ := h.sits
  unfold Server.handle
  rw [hv.method]
  simp [Out.unwrap, inRoom, ha, hroom, hr, roomMessage]

/-- The frame of a session reply. -/
def sessionReply (request data : Value) : Message :=
  .text (.obj [("method", .str "sessionReply"), ("data", data.set "requestId" request)])

def refusal (code : String) (request : Value) : Message := sessionReply request (.obj [("error", .str code)])

/-- The error a session reply tells. -/
def toldError : Message → Value
  | .text v => (v.idx "data").idx "error"
  | _ => .null

/-- A reply is one frame, or another when it is too large, or none. -/
theorem reply_offered (s : Server) (p : String) (req data : Value) : ∃ new, (s.reply p req data).offered = s.offered ++ new ∧
    ∀ x ∈ new, x.2 = sessionReply req data ∨ x.2 = .text (errorData "response_too_large") := by
  have none : s.offered = s.offered ++ [] ∧
      ∀ x ∈ ([] : List (Nat × Message)), x.2 = sessionReply req data ∨ x.2 = .text (errorData "response_too_large") :=
    ⟨(List.append_nil _).symm, fun _ hx => nomatch hx⟩
  unfold reply send
  split
  · unfold sendC
    split
    · rename_i msg hmsg
      have hmsg : msg = sessionReply req data ∨ msg = .text (errorData "response_too_large") := by
        rcases Option.or_eq_some_iff.1 hmsg with h | ⟨-, h⟩
        · exact .inl (encoded_some h)
        · exact .inr (encoded_some h)
      rw [raw_offered]
      split
      · exact ⟨[_], rfl, fun x hx => by rw [List.mem_singleton.1 hx]; exact hmsg⟩
      · exact ⟨[], none⟩
    · exact ⟨[], none⟩
  · exact ⟨[], none⟩

/-- The request is answered `storage_error`. -/
def AnswersStorageError (t u : Server) (cid : Nat) (v : Value) : Prop :=
  u.offered = t.offered ++ [(cid, refusal "storage_error" ((v.idx "data").idx "requestId"))]

omit [Extern] in
/-- Frames that tell no storage error answer none. -/
theorem not_answersStorageError {t u : Server} {new : List (Nat × Message)} (h : u.offered = t.offered ++ new)
    (hnew : ∀ x ∈ new, toldError x.2 ≠ .str "storage_error") (cid : Nat) (v : Value) : ¬ t.AnswersStorageError u cid v := by
  intro ha
  have he := List.append_cancel_left (h.symm.trans ha)
  exact hnew (cid, refusal "storage_error" ((v.idx "data").idx "requestId")) (by rw [he]; exact List.mem_singleton_self _) rfl

theorem not_answersStorageError_errorReply {t : Server} {code : String} (hc : code ≠ "storage_error") (id p : String)
    (req : Value) (r : Room) (cid : Nat) (v : Value) :
    ¬ t.AnswersStorageError (putBack id ((t.takeRoom id).errorReply p req code, r)) cid v := by
  obtain ⟨new, hnew, hall⟩ := reply_offered (t.takeRoom id) p req (.obj [("error", .str code)])
  refine not_answersStorageError (u := putBack id ((t.takeRoom id).errorReply p req code, r)) hnew (fun x hx => ?_) cid v
  rcases hall x hx with he | he
  · rw [he]
    intro h
    exact hc (Value.str.inj h)
  · rw [he]
    exact fun h => nomatch h

/-- What a commit wants of the room before anything is stored. -/
structure Presents (r : Room) (p : String) (d : Value) (u : Upload) : Prop where
  persistent : r.persistent = true
  owner : r.owner = p
  upload : r.upload = some u
  committable : committable r p (d.idx "requestId") u = true
  scheduled : noticeOutsider r (d.idx "scheduled") = some false
  immediate : noticeOutsider r (d.idx "immediate") = some false

/-- The answer to a stored commit of `p`, and what the rest of the room is told. -/
def announced (s : Server) (p : String) (req : Value) (r : Room) : Server :=
  ((s.record [.committed r.id p r.revision r.state]).reply p req (.obj [("revision", .ofNat r.revision)])).broadcast r
    (.obj [("method", .str "sessionUpdated"), ("data", .obj [("revision", .ofNat r.revision)])]) (some p) none

/-- **A commit in order is decided by the store.** -/
theorem Presents.session {s : Server} {r : Room} {p : String} {d : Value} {up : Upload} (h : Presents r p d up) (env : Env)
    {st : Store} {ok : Bool} (hst : s.store.commit env.io r (d.idx "scheduled") (d.idx "immediate") = (st, ok)) :
    s.session env p r "commitSession" d = .ok (if ok then
      (({ s with store := st } : Server).announced p (d.idx "requestId") (committed r up (d.idx "immediate") env.now),
        committed r up (d.idx "immediate") env.now)
    else (({ s with store := st } : Server).errorReply p (d.idx "requestId") "storage_error", r)) := by
  unfold Server.session commitSession
  dsimp only
  rw [h.persistent, h.upload, h.scheduled, h.immediate, Option.filter_some, if_pos h.committable]
  simp only [Bool.not_true, Bool.false_eq_true, if_false, Out.unwrap, if_neg (by decide : ¬ "commitSession" = "getSession"),
    if_neg (by decide : ¬ "commitSession" = "getSessionChunk"), if_neg (by decide : ¬ "commitSession" = "beginSession"),
    h.owner, ne_eq, not_true_eq_false, hst]
  cases ok <;> rfl

/-- None of its frames tells an error of the store. -/
theorem announced_offered (s : Server) (p : String) (req : Value) (r : Room) : ∃ new,
    (s.announced p req r).offered = s.offered ++ new ∧ ∀ x ∈ new, toldError x.2 ≠ .str "storage_error" := by
  obtain ⟨told, htold, hall⟩ := reply_offered (s.record [.committed r.id p r.revision r.state]) p req
    (.obj [("revision", .ofNat r.revision)])
  obtain ⟨news, hnews, hplain⟩ := (emits_broadcast (k := false) (P := fun m => toldError m ≠ .str "storage_error")
    ((s.record [.committed r.id p r.revision r.state]).reply p req (.obj [("revision", .ofNat r.revision)])) r
    (v := .obj [("method", .str "sessionUpdated"), ("data", .obj [("revision", .ofNat r.revision)])]) (some p) none
    (fun h => nomatch h)).offered
  refine ⟨told ++ news, ?_, fun x hx => ?_⟩
  · rw [← List.append_assoc]
    exact hnews.trans (congrArg (· ++ news) htold)
  · rcases List.mem_append.1 hx with hx | hx
    · rcases hall x hx with he | he
      · rw [he]
        exact fun h => nomatch h
      · rw [he]
        exact fun h => nomatch h
    · exact hplain x hx

/-- **Only a commit that was in order is answered `storage_error`.** -/
theorem presents_of_answer {env : Env} {t u : Server} {cid : Nat} {p id : String} {v : Value} {r : Room}
    (h : t.Requests cid p id "commitSession" v) (hr : t.rooms.get id = some r) (hu : t.handle env cid p v = .ok u)
    (ha : t.AnswersStorageError u cid v) : ∃ up, Presents r p (v.idx "data") up := by
  rw [h.commits env hr] at hu
  have refused : ∀ {code}, code ≠ "storage_error" → mapOut (putBack id)
      (.ok ((t.takeRoom id).errorReply p ((v.idx "data").idx "requestId") code, r)) = .ok u → False := by
    intro code hc he
    cases he
    exact not_answersStorageError_errorReply hc id p _ r cid v ha
  unfold Server.session at hu
  dsimp only at hu
  split at hu
  · exact (refused (by decide) hu).elim
  rename_i hpersistent
  rw [if_neg (by decide), if_neg (by decide)] at hu
  split at hu
  · exact (refused (by decide) hu).elim
  rename_i howner
  rw [if_neg (by decide)] at hu
  unfold commitSession at hu
  dsimp only at hu
  split at hu
  · exact (refused (by decide) hu).elim
  rename_i up hup
  obtain ⟨hup, hcommittable⟩ := Option.filter_eq_some_iff.1 hup
  cases hs : noticeOutsider r ((v.idx "data").idx "scheduled") with
  | none =>
    rw [hs] at hu
    cases hu
  | some a =>
    rw [hs] at hu
    cases a with
    | true => exact (@refused "invalid_message" (by decide) hu).elim
    | false =>
      cases hi : noticeOutsider r ((v.idx "data").idx "immediate") with
      | none =>
        rw [hi] at hu
        cases hu
      | some b =>
        rw [hi] at hu
        cases b with
        | true => exact (@refused "invalid_message" (by decide) hu).elim
        | false => exact ⟨up, by simpa using hpersistent, not_not.1 howner, hup, hcommittable, hs, hi⟩

/-- Nothing but the store's count of operations changed, of what a commit is about. -/
structure Unmoved (t u : Server) : Prop where
  rooms : u.rooms.get = t.rooms.get
  files : u.store.rooms = t.store.rooms
  players : u.players = t.players

/-- The job lists in memory and directory are the same. -/
structure SameJobs (t u : Server) : Prop where
  jobs : u.store.jobs = t.store.jobs
  notifications : u.store.notifications = t.store.notifications

omit [Extern] in
theorem setJobs_refused {io : Nat → Bool} {st st' : Store} {id : String} {jobs : List Value}
    (h : st.setJobs io id jobs = (st', false)) :
    st'.rooms = st.rooms ∧ st'.jobs = st.jobs ∧ st'.notifications = st.notifications := by
  unfold Store.setJobs at h
  repeat' split at h
  all_goals cases h
  all_goals exact ⟨rfl, rfl, rfl⟩

omit [Extern] in
/-- A room put back is where it was. -/
theorem putBack_rooms {s : Server} {id : String} {r : Room} (hr : s.rooms.get id = some r) {t : Server}
    (ht : t.rooms = (s.takeRoom id).rooms) : (putBack id (t, r)).rooms.get = s.rooms.get := by
  funext x
  show (t.rooms.insert id r).get x = _
  rw [ht, IndexMap.get_insert]
  show (if x = id then some r else (s.rooms.swapRemove id).get x) = _
  rw [IndexMap.get_swapRemove]
  split
  · rename_i hx
    rw [hx, hr]
  · rfl

/-- **A commit answered `storage_error` changes neither its room nor the job lists.** -/
theorem refused_commit {env : Env} {t u : Server} {cid : Nat} {p id : String} {v : Value} {r : Room}
    (h : t.Requests cid p id "commitSession" v) (hr : t.rooms.get id = some r) (hu : t.handle env cid p v = .ok u)
    (ha : t.AnswersStorageError u cid v) : t.Unmoved u ∧ t.SameJobs u := by
  obtain ⟨up, hpres⟩ := presents_of_answer h hr hu ha
  obtain ⟨⟨st, ok⟩, hst⟩ : ∃ x, x = (t.takeRoom id).store.commit env.io r ((v.idx "data").idx "scheduled")
    ((v.idx "data").idx "immediate") := ⟨_, rfl⟩
  rw [h.commits env hr, hpres.session env hst.symm] at hu
  cases ok with
  | false =>
    obtain ⟨hrooms, hjobs, hnotes⟩ := setJobs_refused hst.symm
    cases hu
    have hcore := reply_toCore ({ t.takeRoom id with store := st } : Server) p ((v.idx "data").idx "requestId")
      (.obj [("error", .str "storage_error")])
    have hlive : (({ t.takeRoom id with store := st } : Server).errorReply p ((v.idx "data").idx "requestId")
        "storage_error").rooms = (t.takeRoom id).rooms := (congrArg Core.rooms hcore :)
    have hplayers : (({ t.takeRoom id with store := st } : Server).errorReply p ((v.idx "data").idx "requestId")
        "storage_error").players = t.players := (congrArg Core.players hcore :)
    refine ⟨⟨putBack_rooms hr hlive, ?_, hplayers⟩, ?_, ?_⟩
    · exact (congrArg (fun c : Core => c.store.rooms) hcore).trans hrooms
    · exact (congrArg (fun c : Core => c.store.jobs) hcore).trans hjobs
    · exact (congrArg (fun c : Core => c.store.notifications) hcore).trans hnotes
  | true =>
    cases hu
    -- a stored commit is answered with the revision, and the room is told
    obtain ⟨new, hnew, hall⟩ := announced_offered ({ t.takeRoom id with store := st } : Server) p
      ((v.idx "data").idx "requestId") (committed r up ((v.idx "data").idx "immediate") env.now)
    exact absurd ha (not_answersStorageError hnew hall cid v)

/-! What comes between a commit that could not be stored and the next attempt. -/

/-- A delivery retires its job, or a commit is answered `storage_error`. -/
inductive Idles (s : Server) : Server → Prop
  | retired (env : Env) (d : Delivery) : Idles s (s.retire env d)
  | refused {env : Env} {cid : Nat} {p id : String} {v : Value} {r : Room} {u : Server}
      (h : s.Requests cid p id "commitSession" v) (hr : s.rooms.get id = some r) (hu : s.handle env cid p v = .ok u)
      (ha : s.AnswersStorageError u cid v) : Idles s u

omit [Extern] in
theorem setJobs_rooms (io : Nat → Bool) (st : Store) (id : String) (jobs : List Value) :
    (st.setJobs io id jobs).1.rooms = st.rooms := (Store.setJobs_files io st id jobs).1

omit [Extern] in
/-- **A retirement changes a job list only.** -/
theorem retire_unmoved (env : Env) (s : Server) (d : Delivery) : s.Unmoved (s.retire env d) := by
  unfold retire
  split
  · exact ⟨rfl, rfl, rfl⟩
  dsimp only
  repeat' split
  · exact ⟨rfl, setJobs_rooms _ _ _ _, rfl⟩
  all_goals exact ⟨rfl, rfl, rfl⟩

theorem Idles.unmoved {s u : Server} (h : s.Idles u) : s.Unmoved u := by
  cases h with
  | retired env d => exact retire_unmoved env s d
  | refused h hr hu ha => exact (refused_commit h hr hu ha).1

/-- **Over any run of them** no room, account or room file changes. -/
theorem idle_run {s u : Server} (h : Relation.ReflTransGen Idles s u) : s.Unmoved u := by
  induction h with
  | refl => exact ⟨rfl, rfl, rfl⟩
  | tail _ hi ih => exact ⟨hi.unmoved.rooms.trans ih.rooms, hi.unmoved.files.trans ih.files, hi.unmoved.players.trans ih.players⟩

omit [Extern] in
/-- When no file operation fails, a commit to a room with an identifier is stored. -/
theorem commit_stored {io : Nat → Bool} (hio : ∀ n, io n = true) {r : Room} (hid : isUuid r.id = true) (st : Store)
    (scheduled immediate : Value) : (st.commit io r scheduled immediate).2 = true := by
  unfold Store.commit Store.setJobs
  rw [if_neg (by rw [hid]; decide)]
  simp only [hio, if_true]
  repeat' split
  all_goals rfl

/-- **A commit that presents an upload commits it when the store takes the jobs.** -/
theorem presented_commit {env : Env} {s : Server} {cid : Nat} {p id : String} {v : Value} {r : Room} {up : Upload} {a : Player}
    (hm : (v.idx "method").asStr = some "commitSession") (ha : s.players.get p = some a) (hroom : a.room = some id)
    (hr : s.rooms.get id = some r) (hpres : Presents r p (v.idx "data") up)
    (hst : (s.store.commit env.io r ((v.idx "data").idx "scheduled") ((v.idx "data").idx "immediate")).2 = true) :
    ∃ w, s.handle env cid p v = .ok w ∧
      w.rooms.get id = some (committed r up ((v.idx "data").idx "immediate") env.now) := by
  have hhandle : s.handle env cid p v =
      mapOut (putBack id) ((s.takeRoom id).session env p r "commitSession" (v.idx "data")) := by
    unfold Server.handle
    rw [hm]
    simp [Out.unwrap, inRoom, ha, hroom, hr, roomMessage]
  have hcommit : (s.takeRoom id).store.commit env.io r ((v.idx "data").idx "scheduled") ((v.idx "data").idx "immediate") =
      ((s.store.commit env.io r ((v.idx "data").idx "scheduled") ((v.idx "data").idx "immediate")).1, true) :=
    Prod.ext rfl hst
  rw [hhandle, hpres.session env hcommit]
  exact ⟨_, rfl, IndexMap.get_insert_self ..⟩

end Server

namespace JobFiles

open Disk Server

variable [Extern]

/-- **Job list and file stay in step.**  Whatever file operation of `set_jobs` or `commit` fails, the two copies of the
room's list are both the new one when it succeeds, and both what they were when it does not, and no other list or file
changes; the store's single operation stands for all of them.  So a commit answered `storage_error` leaves its room, the
job lists and their files as they were, and after any run of retirements and further refused commits the same message
still commits the same upload, once the store takes its jobs. -/
theorem job_lists_in_step :
    (∀ (c : Copies) writes done id n jobs, FileName.path .notifications id = some n →
      writes.flatten = Extern.toVec (.arr jobs) → Together c id n jobs (c.setJobs writes done id jobs)) ∧
    (∀ (c : Copies) writes done (r : Room) n scheduled immediate, FileName.path .notifications r.id = some n →
      writes.flatten = Extern.toVec (.arr (Store.commitJobs r.events ((c.jobs.get r.id).getD []) scheduled immediate)) →
      Together c r.id n (Store.commitJobs r.events ((c.jobs.get r.id).getD []) scheduled immediate)
        (c.commit writes done r scheduled immediate)) ∧
    (∀ (c : Copies) (st : Store) writes done id n jobs, Mirrors c st → FileName.path .notifications id = some n →
      writes.flatten = Extern.toVec (.arr jobs) →
      Mirrors (c.setJobs writes done id jobs).1 (st.setJobs (fun _ => finished writes done n jobs) id jobs).1 ∧
        (c.setJobs writes done id jobs).2 = (st.setJobs (fun _ => finished writes done n jobs) id jobs).2) ∧
    ∀ env (t u : Server) cid p id v r, t.Requests cid p id "commitSession" v → t.rooms.get id = some r →
      t.handle env cid p v = .ok u → t.AnswersStorageError u cid v → t.Unmoved u ∧ t.SameJobs u ∧
      ∀ s, Relation.ReflTransGen Idles u s → ∃ up, r.upload = some up ∧ ∀ env',
        (s.store.commit env'.io r ((v.idx "data").idx "scheduled") ((v.idx "data").idx "immediate")).2 = true →
        ∃ w, s.handle env' cid p v = .ok w ∧
          w.rooms.get id = some (committed r up ((v.idx "data").idx "immediate") env'.now) := by
  refine ⟨fun c writes done id n jobs hn hw => c.setJobs_spec done hn hw,
    fun c writes done r n scheduled immediate hn hw => c.setJobs_spec done hn hw,
    fun c st writes done id n jobs h hn hw => h.setJobs done hn hw, fun env t u cid p id v r h hr hu ha => ?_⟩
  obtain ⟨hunmoved, hsame⟩ := refused_commit h hr hu ha
  refine ⟨hunmoved, hsame, fun s hs => ?_⟩
  obtain ⟨up, hpres⟩ := presents_of_answer h hr hu ha
  obtain ⟨a, hp, hroom⟩ := h.sits
  have hrun := idle_run hs
  refine ⟨up, hpres.upload, fun env' hst => ?_⟩
  obtain ⟨txt, hv⟩ := h.valid
  exact presented_commit hv.method (by rw [hrun.players, hunmoved.players]; exact hp) hroom
    (by rw [hrun.rooms, hunmoved.rooms]; exact hr) hpres hst

end JobFiles

namespace Trace

/-- The first account's upload of `[7]` is complete. -/
def complete : List (Env × Command) := started ++ [(.plain 1, .tells 1 (beginSession 1)), (.plain 1, .receive 1 (chunk [7]))]

/-- A commit that notifies at once. -/
def notifyingCommit : Value := message "commitSession"
  [("requestId", .str request.text), ("scheduled", .null), ("immediate", notice "turn")]

end Trace

namespace JobFiles

open Server

/-- A commit fails with its file and succeeds the next time. -/
theorem job_lists_in_step_retried :
    letI := Extern.reading [Trace.signUp, Trace.createRoom, Trace.startGame, Trace.beginSession 1, Trace.notifyingCommit]
    ∃ t u w : Server, Run (fun _ _ _ => True) (boot .default .empty false) t ∧
      t.handle (Env.failing 2) 1 Trace.account Trace.notifyingCommit = .ok u ∧ u.store.jobs = t.store.jobs ∧
      u.handle (Env.plain 3) 1 Trace.account Trace.notifyingCommit = .ok w ∧
      (w.rooms.get Trace.room).map Room.state = some [7] := by
  let _ := Extern.reading [Trace.signUp, Trace.createRoom, Trace.startGame, Trace.beginSession 1, Trace.notifyingCommit]
  have h : (exec (fun _ _ _ => true) Trace.complete (boot .default .empty false)).any (fun s =>
      (s.rooms.get Trace.room).any (fun r => decide (r.id = Trace.room) &&
        r.upload.any (fun up => decide (up.bytes = [7]))) &&
      decide ((s.connections.get 1).bind (·.player) = some Trace.account) &&
      decide (s.connectionOf Trace.account = some 1) &&
      (s.players.get Trace.account).any (fun a => decide (a.room = some Trace.room)) &&
      decide (Protocol.parse (plainText Trace.notifyingCommit) = some Trace.notifyingCommit) &&
      Protocol.validate Trace.notifyingCommit s.config.maxRoomPlayers s.config.maxAccounts &&
      (s.handle (Env.failing 2) 1 Trace.account Trace.notifyingCommit).result.any (fun u =>
        decide (u.offered = s.offered ++
          [(1, refusal "storage_error" ((Trace.notifyingCommit.idx "data").idx "requestId"))]))) = true := by
    decide +kernel
  obtain ⟨t, ht, h⟩ := (Option.any_eq_true _ _).1 h
  simp only [Bool.and_eq_true, decide_eq_true_eq] at h
  obtain ⟨⟨⟨⟨⟨⟨hr, hplayer⟩, hconn⟩, ha⟩, hparse⟩, hvalid⟩, hh⟩ := h
  obtain ⟨r, hr, hr'⟩ := (Option.any_eq_true _ _).1 hr
  simp only [Bool.and_eq_true, decide_eq_true_eq] at hr'
  obtain ⟨hid, hbytes⟩ := hr'
  obtain ⟨a, ha, hroom⟩ := (Option.any_eq_true _ _).1 ha
  have hrun : Run (fun _ _ _ => True) (boot .default .empty false) t := exec_run (fun _ _ _ _ => trivial) ht
  obtain ⟨u, hu, hoff⟩ : ∃ u, t.handle (Env.failing 2) 1 Trace.account Trace.notifyingCommit = .ok u ∧
      t.AnswersStorageError u 1 Trace.notifyingCommit := by
    obtain ⟨u, hu, hoff⟩ := (Option.any_eq_true _ _).1 hh
    have ho := of_decide_eq_true hoff
    exact ⟨u, Out.result_eq_some.1 hu, ho⟩
  have hreq : t.Requests 1 Trace.account Trace.room "commitSession" Trace.notifyingCommit :=
    ⟨⟨_, hparse, hvalid, rfl⟩, ⟨hplayer, hconn⟩, ⟨a, ha, of_decide_eq_true hroom⟩⟩
  obtain ⟨-, hsame, hlater⟩ := job_lists_in_step.2.2.2 (Env.failing 2) t u 1 Trace.account Trace.room
    Trace.notifyingCommit r hreq hr hu hoff
  obtain ⟨up, hup, hcommit⟩ := hlater u .refl
  have huuid : isUuid r.id = true := by rw [hid]; exact UuidV4.isUuid_text _
  obtain ⟨w, hw, hwr⟩ := hcommit (Env.plain 3) (commit_stored (fun _ => rfl) huuid _ _ _)
  rw [hup] at hbytes
  refine ⟨t, u, w, hrun, hu, hsame.jobs, hw, ?_⟩
  rw [hwr]
  exact congrArg some (of_decide_eq_true hbytes)

end JobFiles
end Relay
