import GameRelay.Logger
/-!
# Logs — the log's channel, its callers and its worker (`diagnostics.rs`)

A call of `event` reserves the bytes of its line and sends the line to a channel; when it cannot it gives the bytes back
and counts a dropped line.  A thread of its own takes the entries out.  `Logs.step` is one atomic operation of a call, of
a flush or of that thread, so a run is any interleaving of them.  `Accounts` says where every line is:
**no line is lost uncounted, overtaken or kept beyond the budget** (`log_queue_is_accounted`).
-/
namespace Relay

inductive LogEntry where
  | line (line : String)
  | flush (id : Nat)
  deriving DecidableEq

/-- A call of `event` between two of its atomic operations. -/
inductive LogCall where
  /-- The bytes are reserved. -/
  | sending (line : String)
  /-- There is no room: the bytes are to be given back. -/
  | undoing (line : String)
  /-- They are given back: the line is to be counted as dropped. -/
  | losing (line : String)

/-- The worker between two of its atomic operations. -/
inductive LogWorker where
  | waiting
  | taken (line : String)
  | writing (line : String)
  | flushing (id : Nat)
  | done (id : Nat)

structure Logs where
  queued : Nat := 0
  dropped : Nat := 0
  channel : List LogEntry := []
  calls : List LogCall := []
  worker : LogWorker := .waiting
  /-- The worker has a logger: it started, and no write has failed. -/
  logger : Bool
  /-- The lines of all calls, those counted as dropped, what entered the channel, what the worker is done with, and the
  counts of dropped lines that it wrote to the log. -/
  called : List String := []
  lost : List String := []
  sent : List LogEntry := []
  finished : List LogEntry := []
  reports : List Nat := []

/-- Who makes the next operation. -/
inductive LogOp where
  | event (line : String)
  | call (i : Nat)
  | flush (id : Nat)
  | worker (ok : Bool)

namespace Logs

def capacity : Nat := 256

def budget : Nat := 8 * 1024 * 1024

/-- The bytes are reserved, and seen to be too many after the fact. -/
def event (s : Logs) (line : String) : Logs :=
  let n := line.utf8ByteSize
  { s with
    queued := s.queued + n, called := s.called ++ [line],
    calls := s.calls ++ [if s.queued + n > budget then .undoing line else .sending line] }

def send (s : Logs) (e : LogEntry) : Logs := { s with channel := s.channel ++ [e], sent := s.sent ++ [e] }

/-- The next operation of the `i`-th call in progress. -/
def advance (s : Logs) (i : Nat) : LogCall → Logs
  | .sending line =>
    if s.channel.length < capacity then { s with calls := s.calls.eraseIdx i }.send (.line line)
    else { s with calls := s.calls.set i (.undoing line) }
  | .undoing line => { s with queued := s.queued - line.utf8ByteSize, calls := s.calls.set i (.losing line) }
  | .losing line => { s with dropped := s.dropped + 1, calls := s.calls.eraseIdx i, lost := s.lost ++ [line] }

/-- A flush tries again while the channel is full, until it gives up. -/
def flush (s : Logs) (id : Nat) : Logs := if s.channel.length < capacity then s.send (.flush id) else s

def take (s : Logs) : Logs :=
  match s.channel with
  | [] => s
  | .line line :: channel => { s with channel, worker := .taken line }
  | .flush id :: channel => { s with channel, worker := .flushing id }

/-- The count of dropped lines goes to the log with a flush. -/
def report (s : Logs) (id : Nat) : Logs :=
  if s.logger then
    { s with dropped := 0, reports := if s.dropped > 0 then s.reports ++ [s.dropped] else s.reports, worker := .done id }
  else { s with worker := .done id }

/-- `ok` is what the logger's write returned. -/
def work (s : Logs) (ok : Bool) : Logs :=
  match s.worker with
  | .waiting => s.take
  | .taken line => { s with queued := s.queued - line.utf8ByteSize, worker := .writing line }
  | .writing line => { s with logger := s.logger && ok, worker := .waiting, finished := s.finished ++ [.line line] }
  | .flushing id => s.report id
  | .done id => { s with worker := .waiting, finished := s.finished ++ [.flush id] }

def step (s : Logs) : LogOp → Logs
  | .event line => s.event line
  | .call i => match s.calls[i]? with
    | some c => s.advance i c
    | none => s
  | .flush id => s.flush id
  | .worker ok => s.work ok

def run (s : Logs) (ops : List LogOp) : Logs := ops.foldl step s

end Logs

/-! ## Where every line is -/

def LogEntry.text : LogEntry → Option String
  | .line l => some l
  | .flush _ => none

def LogEntry.size (e : LogEntry) : Nat := (e.text.map String.utf8ByteSize).getD 0

def LogCall.line : LogCall → String
  | .sending line => line
  | .undoing line => line
  | .losing line => line

/-- The bytes a call has in `queued`. -/
def LogCall.reserved : LogCall → Nat
  | .sending line => line.utf8ByteSize
  | .undoing line => line.utf8ByteSize
  | .losing _ => 0

/-- Those of them that may still enter the channel. -/
def LogCall.granted : LogCall → Nat
  | .sending line => line.utf8ByteSize
  | .undoing _ => 0
  | .losing _ => 0

/-- The bytes the worker has yet to give back. -/
def LogWorker.reserved : LogWorker → Nat
  | .taken line => line.utf8ByteSize
  | _ => 0

/-- The entry the worker is at. -/
def LogWorker.entry : LogWorker → List LogEntry
  | .waiting => []
  | .taken line => [.line line]
  | .writing line => [.line line]
  | .flushing id => [.flush id]
  | .done id => [.flush id]

def lines (entries : List LogEntry) : List String := entries.filterMap LogEntry.text

def entryBytes (entries : List LogEntry) : Nat := (entries.map LogEntry.size).sum

namespace Logs

/-- **Where every line is**, and what the counters say. -/
structure Accounts (s : Logs) : Prop where
  queued : s.queued = entryBytes s.channel + s.worker.reserved + (s.calls.map LogCall.reserved).sum
  budget : entryBytes s.channel + s.worker.reserved + (s.calls.map LogCall.granted).sum ≤ budget
  room : s.channel.length ≤ capacity
  order : s.sent = s.finished ++ s.worker.entry ++ s.channel
  called : s.called.Perm (lines s.sent ++ s.calls.map LogCall.line ++ s.lost)
  lost : s.lost.length = s.dropped + s.reports.sum

/-! Replacing one call, or taking it out. -/

theorem perm_eraseIdx {calls : List LogCall} {i : Nat} {c : LogCall} (h : calls[i]? = some c) :
    calls.Perm (c :: calls.eraseIdx i) := by
  obtain ⟨hi, rfl⟩ := List.getElem?_eq_some_iff.1 h
  exact (List.getElem_cons_eraseIdx_perm hi).symm

theorem perm_set {calls : List LogCall} {i : Nat} {c : LogCall} (h : calls[i]? = some c) (d : LogCall) :
    (calls.set i d).Perm (d :: calls.eraseIdx i) := List.set_perm_cons_eraseIdx (List.getElem?_eq_some_iff.1 h).1 d

theorem sum_eraseIdx {calls : List LogCall} {i : Nat} {c : LogCall} (h : calls[i]? = some c) (f : LogCall → Nat) :
    (calls.map f).sum = f c + ((calls.eraseIdx i).map f).sum := by
  rw [((perm_eraseIdx h).map f).sum_eq, List.map_cons, List.sum_cons]

theorem sum_set {calls : List LogCall} {i : Nat} {c : LogCall} (h : calls[i]? = some c) (d : LogCall) (f : LogCall → Nat) :
    ((calls.set i d).map f).sum = f d + ((calls.eraseIdx i).map f).sum := by
  rw [((perm_set h d).map f).sum_eq, List.map_cons, List.sum_cons]

theorem entryBytes_append (a b : List LogEntry) : entryBytes (a ++ b) = entryBytes a + entryBytes b := by
  rw [entryBytes, List.map_append, List.sum_append]
  rfl

theorem entryBytes_line (l : String) : entryBytes [.line l] = l.utf8ByteSize := Nat.add_zero _

theorem lines_append (a b : List LogEntry) : lines (a ++ b) = lines a ++ lines b := List.filterMap_append

/-- What may enter the channel is reserved. -/
theorem granted_le (calls : List LogCall) : (calls.map LogCall.granted).sum ≤ (calls.map LogCall.reserved).sum := by
  refine List.sum_le_sum (fun c _ => ?_)
  cases c with
  | sending line => exact Nat.le_refl _
  | undoing line => exact Nat.zero_le _
  | losing line => exact Nat.le_refl _

namespace Accounts

variable {s : Logs}

theorem event (h : s.Accounts) (l : String) : (s.event l).Accounts := by
  have hg := granted_le s.calls
  have hq := h.queued
  have hb := h.budget
  refine ⟨?_, ?_, h.room, h.order, ?_, h.lost⟩
  · show s.queued + l.utf8ByteSize = entryBytes s.channel + s.worker.reserved + ((s.calls ++ [_]).map LogCall.reserved).sum
    rw [List.map_append, List.sum_append]
    split
    all_goals
      simp only [List.map_cons, List.map_nil, List.sum_cons, List.sum_nil, LogCall.reserved]
      omega
  · show entryBytes s.channel + s.worker.reserved + ((s.calls ++ [_]).map LogCall.granted).sum ≤ Logs.budget
    rw [List.map_append, List.sum_append]
    split
    all_goals
      simp only [List.map_cons, List.map_nil, List.sum_cons, List.sum_nil, LogCall.granted]
      omega
  · show (s.called ++ [l]).Perm (lines s.sent ++ (s.calls ++ [_]).map LogCall.line ++ s.lost)
    rw [List.map_append]
    have hl : [if s.queued + l.utf8ByteSize > Logs.budget then LogCall.undoing l else .sending l].map LogCall.line = [l] := by
      split <;> rfl
    rw [hl, ← List.append_assoc, List.append_assoc _ [l]]
    refine (h.called.append_right [l]).trans ?_
    rw [List.append_assoc]
    exact (List.perm_append_comm).append_left _

/-- An entry enters the channel while there is room for it. -/
theorem send (h : s.Accounts) {calls : List LogCall} {e : LogEntry} (hroom : s.channel.length < capacity)
    (hr : (s.calls.map LogCall.reserved).sum = e.size + (calls.map LogCall.reserved).sum)
    (hg : (s.calls.map LogCall.granted).sum = e.size + (calls.map LogCall.granted).sum)
    (hl : (s.calls.map LogCall.line).Perm (e.text.toList ++ calls.map LogCall.line)) :
    ({ s with calls }.send e).Accounts := by
  have hq := h.queued
  have hb := h.budget
  have hbytes : entryBytes (s.channel ++ [e]) = entryBytes s.channel + e.size := by
    rw [entryBytes_append]
    exact congrArg (entryBytes s.channel + ·) (Nat.add_zero _)
  refine ⟨?_, ?_, ?_, ?_, ?_, h.lost⟩
  · show s.queued = entryBytes (s.channel ++ [e]) + s.worker.reserved + (calls.map LogCall.reserved).sum
    omega
  · show entryBytes (s.channel ++ [e]) + s.worker.reserved + (calls.map LogCall.granted).sum ≤ Logs.budget
    omega
  · show (s.channel ++ [e]).length ≤ capacity
    rw [List.length_append]
    exact hroom
  · show s.sent ++ [e] = s.finished ++ s.worker.entry ++ (s.channel ++ [e])
    rw [h.order, List.append_assoc _ s.channel]
  · show s.called.Perm (lines (s.sent ++ [e]) ++ calls.map LogCall.line ++ s.lost)
    have he : lines [e] = e.text.toList := by cases e <;> rfl
    rw [lines_append, he, List.append_assoc (lines s.sent)]
    exact h.called.trans ((hl.append_left _).append_right _)

theorem advance (h : s.Accounts) {i : Nat} {c : LogCall} (hc : s.calls[i]? = some c) : (s.advance i c).Accounts := by
  have hq := h.queued
  have hb := h.budget
  have hr := sum_eraseIdx hc LogCall.reserved
  have hg := sum_eraseIdx hc LogCall.granted
  have hl : (s.calls.map LogCall.line).Perm (c.line :: (s.calls.eraseIdx i).map LogCall.line) := (perm_eraseIdx hc).map _
  have replaced : ∀ d : LogCall, d.line = c.line → ((s.calls.set i d).map LogCall.line).Perm (s.calls.map LogCall.line) :=
    fun d hd => ((perm_set hc d).map _).trans (by rw [List.map_cons, hd]; exact hl.symm)
  cases c with
  | sending line =>
    change Accounts (if s.channel.length < capacity then _ else _)
    split
    · rename_i hroom
      exact h.send hroom hr hg hl
    · have hr' := sum_set hc (.undoing line) LogCall.reserved
      have hg' := sum_set hc (.undoing line) LogCall.granted
      simp only [LogCall.reserved, LogCall.granted] at hr hg hr' hg'
      refine ⟨?_, ?_, h.room, h.order, h.called.trans (((replaced (.undoing line) rfl).symm.append_left _).append_right _), h.lost⟩
      · dsimp only
        omega
      · dsimp only
        omega
  | undoing line =>
    have hr' := sum_set hc (.losing line) LogCall.reserved
    have hg' := sum_set hc (.losing line) LogCall.granted
    simp only [LogCall.reserved, LogCall.granted] at hr hg hr' hg'
    refine ⟨?_, ?_, h.room, h.order, h.called.trans (((replaced (.losing line) rfl).symm.append_left _).append_right _), h.lost⟩
    · show s.queued - line.utf8ByteSize = entryBytes s.channel + s.worker.reserved + ((s.calls.set i _).map _).sum
      omega
    · show entryBytes s.channel + s.worker.reserved + ((s.calls.set i _).map _).sum ≤ Logs.budget
      omega
  | losing line =>
    simp only [LogCall.reserved, LogCall.granted] at hr hg
    refine ⟨?_, ?_, h.room, h.order, ?_, ?_⟩
    · show s.queued = entryBytes s.channel + s.worker.reserved + ((s.calls.eraseIdx i).map _).sum
      omega
    · show entryBytes s.channel + s.worker.reserved + ((s.calls.eraseIdx i).map _).sum ≤ Logs.budget
      omega
    · show s.called.Perm (lines s.sent ++ (s.calls.eraseIdx i).map LogCall.line ++ (s.lost ++ [line]))
      refine h.called.trans (((hl.append_left _).append_right _).trans ?_)
      simp only [List.append_assoc, List.cons_append]
      refine List.Perm.append_left _ (List.perm_middle.symm.trans (List.Perm.append_left _ ?_))
      exact (List.perm_append_singleton line s.lost).symm
    · show (s.lost ++ [line]).length = s.dropped + 1 + s.reports.sum
      rw [List.length_append, h.lost, List.length_singleton]
      omega

theorem flush (h : s.Accounts) (id : Nat) : (s.flush id).Accounts := by
  unfold Logs.flush
  split
  · rename_i hroom
    exact h.send hroom (Nat.zero_add _).symm (Nat.zero_add _).symm (List.Perm.refl _)
  · exact h

theorem work (h : s.Accounts) (ok : Bool) : (s.work ok).Accounts := by
  have hq := h.queued
  have hb := h.budget
  have ho := h.order
  unfold Logs.work
  cases hw : s.worker with
  | waiting =>
    rw [hw] at hq hb ho
    dsimp only
    unfold Logs.take
    have hroom := h.room
    cases hch : s.channel with
    | nil => exact h
    | cons e channel =>
      rw [hch] at hq hb ho hroom
      have he : entryBytes (e :: channel) = e.size + entryBytes channel := rfl
      rw [List.length_cons] at hroom
      cases e with
      | line line =>
        have hs : (LogEntry.line line).size = line.utf8ByteSize := rfl
        simp only [LogWorker.reserved] at hq hb
        refine ⟨?_, ?_, Nat.le_of_succ_le hroom, ?_, h.called, h.lost⟩
        · simp only [LogWorker.reserved]
          omega
        · simp only [LogWorker.reserved]
          omega
        · rw [ho]
          simp [LogWorker.entry]
      | flush id =>
        have hs : (LogEntry.flush id).size = 0 := rfl
        simp only [LogWorker.reserved] at hq hb
        refine ⟨?_, ?_, Nat.le_of_succ_le hroom, ?_, h.called, h.lost⟩
        · simp only [LogWorker.reserved]
          omega
        · simp only [LogWorker.reserved]
          omega
        · rw [ho]
          simp [LogWorker.entry]
  | taken line =>
    rw [hw] at hq hb ho
    simp only [LogWorker.reserved] at hq hb
    refine ⟨?_, ?_, h.room, ho, h.called, h.lost⟩
    · simp only [LogWorker.reserved]
      omega
    · simp only [LogWorker.reserved]
      omega
  | writing line =>
    rw [hw] at hq hb ho
    refine ⟨hq, hb, h.room, ?_, h.called, h.lost⟩
    rw [ho]
    simp [LogWorker.entry]
  | flushing id =>
    rw [hw] at hq hb ho
    dsimp only
    unfold Logs.report
    split
    · refine ⟨hq, hb, h.room, ho, h.called, ?_⟩
      rw [h.lost]
      dsimp only
      split
      · rw [List.sum_append, List.sum_singleton]
        omega
      · omega
    · exact ⟨hq, hb, h.room, ho, h.called, h.lost⟩
  | done id =>
    rw [hw] at hq hb ho
    refine ⟨hq, hb, h.room, ?_, h.called, h.lost⟩
    rw [ho]
    simp [LogWorker.entry]

/-- **Every operation leaves every line accounted for.** -/
theorem step (h : s.Accounts) (op : LogOp) : (s.step op).Accounts := by
  cases op with
  | event line => exact h.event line
  | call i =>
    unfold Logs.step
    dsimp only
    cases hc : s.calls[i]? with
    | none => exact h
    | some c => exact h.advance hc
  | flush id => exact h.flush id
  | worker ok => exact h.work ok

theorem run : ∀ (ops : List LogOp) {s : Logs}, s.Accounts → (s.run ops).Accounts
  | [], _, h => h
  | op :: ops, _, h => run ops (h.step op)

theorem start (logger : Bool) : Accounts { logger } :=
  ⟨rfl, Nat.zero_le _, Nat.zero_le _, rfl, .refl _, rfl⟩

end Accounts

/-! What has been sent stays sent, and the worker gets through it. -/

theorem sent_step (s : Logs) (op : LogOp) : s.sent <+: (s.step op).sent := by
  have sends : ∀ (calls : List LogCall) (e : LogEntry), s.sent <+: ({ s with calls }.send e).sent :=
    fun _ _ => List.prefix_append _ _
  cases op with
  | event line => exact List.prefix_refl _
  | call i =>
    unfold step
    dsimp only
    cases s.calls[i]? with
    | none => exact List.prefix_refl _
    | some c =>
      cases c with
      | sending line =>
        change s.sent <+: (if s.channel.length < capacity then _ else _ : Logs).sent
        split
        · exact sends _ _
        · exact List.prefix_refl _
      | undoing line => exact List.prefix_refl _
      | losing line => exact List.prefix_refl _
  | flush id =>
    change s.sent <+: (s.flush id).sent
    unfold flush
    split
    · exact sends s.calls _
    · exact List.prefix_refl _
  | worker ok =>
    change s.sent <+: (s.work ok).sent
    unfold work take report
    split
    · split <;> exact List.prefix_refl _
    · exact List.prefix_refl _
    · exact List.prefix_refl _
    · split <;> exact List.prefix_refl _
    · exact List.prefix_refl _

theorem sent_run : ∀ (ops : List LogOp) (s : Logs), s.sent <+: (s.run ops).sent
  | [], _ => List.prefix_refl _
  | op :: ops, s => (sent_step s op).trans (sent_run ops (s.step op))

/-- Operations of the worker alone, its writes succeeding. -/
def works (n : Nat) (s : Logs) : Logs := s.run (List.replicate n (.worker true))

theorem works_add (m n : Nat) (s : Logs) : works (m + n) s = works n (works m s) := by
  unfold works run
  rw [List.replicate_add, List.foldl_append]

/-- **What the worker is at, it gets done.** -/
theorem works_done (s : Logs) : ∃ n, (works n s).worker = .waiting ∧ (works n s).channel = s.channel ∧
    (works n s).sent = s.sent ∧ (works n s).calls = s.calls := by
  have one : ∀ t : Logs, works 1 t = t.work true := fun _ => rfl
  have two : ∀ t : Logs, works 2 t = (t.work true).work true := fun _ => rfl
  cases hw : s.worker with
  | waiting => exact ⟨0, hw, rfl, rfl, rfl⟩
  | taken line =>
    refine ⟨2, ?_⟩
    rw [two]
    simp [work, hw]
  | writing line =>
    refine ⟨1, ?_⟩
    rw [one]
    simp [work, hw]
  | flushing id =>
    refine ⟨2, ?_⟩
    rw [two]
    cases hl : s.logger <;> simp [work, report, hw, hl]
  | done id =>
    refine ⟨1, ?_⟩
    rw [one]
    simp [work, hw]

/-- **The worker gets through the channel.** -/
theorem works_through : ∀ (channel : List LogEntry) (s : Logs), s.worker = .waiting → s.channel = channel →
    ∃ n, (works n s).worker = .waiting ∧ (works n s).channel = [] ∧ (works n s).sent = s.sent ∧
      (works n s).calls = s.calls
  | [], s, hw, hc => ⟨0, hw, hc, rfl, rfl⟩
  | e :: channel, s, hw, hc => by
    have htake : (works 1 s).channel = channel ∧ (works 1 s).sent = s.sent ∧ (works 1 s).calls = s.calls := by
      change (s.work true).channel = channel ∧ (s.work true).sent = s.sent ∧ (s.work true).calls = s.calls
      cases e <;> simp [work, take, hw, hc]
    obtain ⟨m, hm, hmc, hms, hml⟩ := works_done (works 1 s)
    obtain ⟨n, hn, hnc, hns, hnl⟩ := works_through channel (works m (works 1 s)) hm (hmc.trans htake.1)
    refine ⟨1 + m + n, ?_⟩
    rw [works_add, works_add]
    exact ⟨hn, hnc, hns.trans (hms.trans htake.2.1), hnl.trans (hml.trans htake.2.2)⟩

end Logs
end Relay
