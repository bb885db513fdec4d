import GameRelay.Telemetry
/-!
# Activity — what is counted and remembered, and its way to the queue (`diagnostics.rs`, `telemetry.rs`)

`event` counts under a few names and remembers errors.  From time to time the sampler has the state worker take both, and
puts what was taken in the telemetry queue.  `Monitor.step` is one step of either, so a run is any interleaving.
`Reported` says where each count is and which errors are remembered; hence **nothing counted is lost or reported twice**
(`activity_is_reported`).
-/
namespace Relay

/-- What `event` counts, and under which name. -/
def counters : List (String × String) := [
  ("connection.connected", "connections"), ("connection.disconnected", "disconnects"),
  ("connection.terminate", "terminated"), ("authentication.failed", "authFailures"),
  ("authentication.succeeded", "authSuccesses"), ("protocol.error", "protocolErrors"), ("room.created", "roomsCreated"),
  ("room.deleted", "roomsDeleted"), ("room.entered", "roomEntries"), ("room.left", "roomLeaves"),
  ("room.owner_changed", "ownerChanges"), ("room.game_started", "gamesStarted"), ("connection.error", "socketErrors"),
  ("transport.rejected", "transportRejected"), ("transport.error", "transportErrors"),
  ("transport.timeout", "transportTimeouts"), ("upgrade.rejected", "upgradeRejected"), ("upgrade.error", "upgradeErrors"),
  ("message.discarded", "messagesDiscarded"), ("message.not_sent", "messagesNotSent"), ("account.expired", "accountsExpired")]

/-- The names under which one event counts. -/
def tally (event : String) (details : Value) : List String :=
  match counters.lookup event with
  | none => []
  | some k =>
    k :: if event = "connection.terminate" ∧
        ((details.idx "reason").asStr.getD "") ∈ ["message_rate_limit", "output_buffer_limit"] then ["rateLimits"] else []

/-- A counter, of those kept in an object. -/
def counter (k : String) (activity : Value) : Nat := ((activity.idx k).asU64).getD 0

/-- One more, up to the largest 64-bit integer. -/
def count (activity : Value) (k : String) : Value :=
  activity.set k (.ofNat (min (counter k activity + 1) (2 ^ 64 - 1)))

/-- The names of the errors that are remembered. -/
def faultNames : List String :=
  ["server.http_error", "server.websocket_error", "server.start_failed", "server.fatal", "server.shutdown_failed"]

def faultName (event : String) : Option String :=
  if event = "http server error" then some "server.http_error"
  else if event = "websocket server error" then some "server.websocket_error"
  else if event ∈ ["server.start_failed", "server.fatal", "server.shutdown_failed"] then some event
  else none

structure Fault where
  name : String
  time : Nat
  deriving DecidableEq

/-! ## The sampler's side -/

namespace Telemetry

/-- The event becomes an error. -/
def mark (name : String) (v : Value) : Value :=
  (v.set "type" (.str "error")).set "error" (.obj [("name", .str "Error"), ("message", .str name)])

/-- The last of a queue, if there is one. -/
def markLast (name : String) (queue : List Value) : List Value :=
  match queue.getLast? with
  | none => []
  | some v => queue.dropLast ++ [mark name v]

variable (num : Number → String)

def capture (t : Telemetry) (id timestamp name : String) : Telemetry :=
  let t := t.enqueue num id timestamp name (.obj [])
  { t with queue := markLast name t.queue }

def Trail.capture (r : Trail) (id timestamp name : String) : Trail where
  now := r.now.capture num id timestamp name
  enqueued := r.enqueued ++ [mark name (r.now.event id timestamp name (.obj []))]
  posts := r.posts

end Telemetry

/-- Where the sampler is. -/
inductive Sampler where
  | idle
  /-- It asked the worker at that time. -/
  | asked (time : Nat)
  /-- The worker took the errors, -/
  | taking (time : Nat) (faults : List Fault)
  /-- and then the counters. -/
  | answered (time : Nat) (faults : List Fault) (stats activity : Value)

structure Monitor where
  trail : Telemetry.Trail
  started : Nat
  window : Nat
  activity : Value := .obj []
  errors : List Fault := []
  sampler : Sampler := .idle
  /-- Every count so far, the errors remembered since they were last taken, and all that were taken. -/
  counted : List String := []
  recent : List Fault := []
  taken : List Fault := []

/-- Who makes the next step. -/
inductive MonitorOp where
  | event (time : Nat) (event : String) (details : Value)
  | ask (time : Nat)
  | takeFaults
  | takeActivity (stats : Value)
  /-- What the sampler draws for its events, the memory in use, and the post with its outcome. -/
  | report (draws : Nat → String × String) (rss now later : Nat) (response : Option Nat)

def hasFields : Value → Bool
  | .obj (_ :: _) => true
  | _ => false

namespace Monitor

def remember (m : Monitor) (name : String) (time : Nat) : Monitor :=
  if m.errors.any (fun e => decide (e.name = name) && decide (time - e.time < 60000)) then m
  else
    let errors := m.errors ++ [⟨name, time⟩]
    { m with errors := if 16 < errors.length then errors.drop 1 else errors, recent := m.recent ++ [⟨name, time⟩] }

def event (m : Monitor) (time : Nat) (event : String) (details : Value) : Monitor :=
  let m := { m with
    activity := (tally event details).foldl count m.activity, counted := m.counted ++ tally event details }
  match faultName event with
  | none => m
  | some name => m.remember name time

variable (num : Number → String)

/-- What was taken goes to the queue: each error, the counters if any, and the state of the process. -/
def report (m : Monitor) (time : Nat) (faults : List Fault) (stats activity : Value) (draws : Nat → String × String)
    (rss now later : Nat) (response : Option Nat) : Monitor :=
  let trail := faults.zipIdx.foldl (fun r e => r.capture num (draws e.2).1 (draws e.2).2 e.1.name) m.trail
  let enqueue := fun (r : Telemetry.Trail) i name properties => r.step num (.enqueue (draws i).1 (draws i).2 name properties)
  let n := faults.length
  let trail := if hasFields activity
    then enqueue trail n "server.activity" (activity.set "windowMs" (.ofNat (time - m.window))) else trail
  let stats := ((stats.set "rssBytes" (.ofNat rss)).set "uptimeSeconds" (.ofNat ((time - m.started) / 1000))).set
    "telemetryDropped" (.ofNat trail.now.dropped)
  let trail := enqueue trail (n + 1) "server.metrics" stats
  { m with trail := trail.step num (.flush now later false response), window := time, sampler := .idle }

def step (m : Monitor) : MonitorOp → Monitor
  | .event time event details => m.event time event details
  | .ask time => match m.sampler with
    | .idle => { m with sampler := .asked time }
    | _ => m
  | .takeFaults => match m.sampler with
    | .asked time =>
      { m with sampler := .taking time m.errors, errors := [], recent := [], taken := m.taken ++ m.errors }
    | _ => m
  | .takeActivity stats => match m.sampler with
    | .taking time faults => { m with sampler := .answered time faults stats m.activity, activity := .obj [] }
    | _ => m
  | .report draws rss now later response => match m.sampler with
    | .answered time faults stats activity => m.report num time faults stats activity draws rss now later response
    | _ => m

def run (m : Monitor) (ops : List MonitorOp) : Monitor := ops.foldl (step num) m

end Monitor

/-! ## The counters -/

/-- What an event in the queue reports of a counter. -/
def reported (k : String) (v : Value) : Nat :=
  if v.idx "name" = .str "server.activity" then counter k (v.idx "properties") else 0

/-- The error that an event in the queue is. -/
def faultOf (v : Value) : Option String := if v.idx "type" = .str "error" then (v.idx "name").asStr else none

/-- What the sampler has taken, and not yet reported. -/
def Sampler.held (k : String) : Sampler → Nat
  | .answered _ _ _ activity => counter k activity
  | _ => 0

def Sampler.faults : Sampler → List Fault
  | .taking _ faults | .answered _ faults _ _ => faults
  | _ => []

theorem isObject_count {a : Value} (ha : a.isObject = true) (k : String) : (count a k).isObject = true :=
  Value.isObject_set ha k _

/-- One more, below the limit. -/
theorem counter_count {a : Value} (ha : a.isObject = true) (k x : String) (h : counter x a + 1 < 2 ^ 64) :
    counter x (count a k) = counter x a + if k = x then 1 else 0 := by
  unfold count
  rw [counter, Value.idx_set ha]
  by_cases hx : x = k
  · subst hx
    rw [if_pos rfl, if_pos rfl]
    show min (counter x a + 1) (2 ^ 64 - 1) = _
    omega
  · rw [if_neg hx, if_neg (fun h => hx h.symm)]
    rfl

theorem counter_tally : ∀ (ks : List String) {a : Value}, a.isObject = true → ∀ x, counter x a + ks.count x < 2 ^ 64 →
    (ks.foldl count a).isObject = true ∧ counter x (ks.foldl count a) = counter x a + ks.count x
  | [], _, ha, _, _ => ⟨ha, rfl⟩
  | k :: ks, a, ha, x, h => by
    rw [List.count_cons] at h ⊢
    by_cases hk : k = x
    · subst hk
      rw [beq_self_eq_true, if_pos rfl] at h ⊢
      have hone := counter_count ha k k (by omega)
      rw [if_pos rfl] at hone
      obtain ⟨hobj, hrest⟩ := counter_tally ks (isObject_count ha k) k (by omega)
      exact ⟨hobj, by rw [List.foldl_cons, hrest, hone]; omega⟩
    · have hne : (k == x) = false := beq_false_of_ne hk
      rw [hne, if_neg Bool.false_ne_true] at h ⊢
      have hsame : counter x (count a k) = counter x a := by
        unfold count counter
        rw [Value.idx_set_ne (fun he => hk he.symm)]
      obtain ⟨hobj, hrest⟩ := counter_tally ks (isObject_count ha k) x (by omega)
      exact ⟨hobj, by rw [List.foldl_cons, hrest, hsame, Nat.add_zero]⟩

/-! ## What goes to the queue -/

namespace Telemetry

variable (num : Number → String)

theorem reported_event (t : Telemetry) (id timestamp name : String) (properties : Value) (k : String) :
    reported k (t.event id timestamp name properties) = if name = "server.activity" then counter k properties else 0 := by
  unfold reported
  rw [show (t.event id timestamp name properties).idx "name" = .str name from rfl,
    show (t.event id timestamp name properties).idx "properties" = properties from rfl]
  by_cases h : name = "server.activity"
  · rw [if_pos (by rw [h]), if_pos h]
  · rw [if_neg (fun he => h (Value.str.inj he)), if_neg h]

theorem faultOf_event (t : Telemetry) (id timestamp name : String) (properties : Value) :
    faultOf (t.event id timestamp name properties) = none := rfl

theorem reported_mark (t : Telemetry) (id timestamp : String) {name : String} (h : name ≠ "server.activity") (k : String) :
    reported k (mark name (t.event id timestamp name (.obj []))) = 0 := by
  unfold reported
  rw [show (mark name (t.event id timestamp name (.obj []))).idx "name" = .str name from rfl,
    if_neg (fun he => h (Value.str.inj he))]

theorem faultOf_mark (t : Telemetry) (id timestamp name : String) :
    faultOf (mark name (t.event id timestamp name (.obj []))) = some name := rfl

/-- The mark is on the event just put in, if that is still there. -/
theorem markLast_spec (name : String) {queue lost rest : List Value} {v : Value} (h : queue ++ [v] = lost ++ rest) :
    ∃ lost', queue ++ [mark name v] = lost' ++ markLast name rest ∧ lost'.length = lost.length ∧
      (markLast name rest).length = rest.length := by
  rcases List.eq_nil_or_concat rest with rfl | ⟨front, x, rfl⟩
  · refine ⟨queue ++ [mark name v], (List.append_nil _).symm, ?_, rfl⟩
    rw [List.append_nil] at h
    rw [← h, List.length_append, List.length_append]
    rfl
  · rw [List.concat_eq_append] at h ⊢
    rw [← List.append_assoc] at h
    obtain ⟨hq, hx⟩ := List.append_inj' h rfl
    cases hx
    refine ⟨lost, ?_, rfl, ?_⟩
    · rw [markLast, List.getLast?_concat, hq, List.append_assoc]
      dsimp only
      rw [List.dropLast_concat]
    · rw [markLast, List.getLast?_concat]
      dsimp only
      rw [List.dropLast_concat, List.length_append, List.length_append]
      rfl

/-- **A captured error is accounted for as any other event.** -/
theorem Account.capture {r : Trail} {gone : List (Value × Bool)} (h : Account num r gone) (id timestamp name : String) :
    ∃ more, Account num (r.capture num id timestamp name) (gone ++ more) := by
  obtain ⟨lost, hq, hd, hl⟩ := evict_spec num (r.now.queue ++ [r.now.event id timestamp name (.obj [])]) r.now.dropped
  obtain ⟨lost', hq', hlen, hlast⟩ := markLast_spec name hq
  refine ⟨lost'.map (fun v => (v, false)), ⟨?_, ?_, ?_, ?_, h.posts⟩⟩
  · show r.enqueued ++ [_] = _ ++ markLast name _
    rw [h.enqueued, List.append_assoc, List.map_append, map_mark, List.append_assoc]
    exact congrArg (gone.map Prod.fst ++ ·) hq'
  · rw [List.filter_append, filter_mark_nil _ _ _ (fun _ => rfl), List.append_nil]
    exact h.accepted
  · rw [List.filter_append, filter_mark _ _ _ (fun _ => rfl), List.length_append, List.length_map, ← h.dropped, hlen]
    exact hd
  · exact Nat.le_trans (Nat.le_of_eq hlast) hl

/-- Errors captured one after the other. -/
theorem Account.captures (draws : Nat → String × String) (k : String) :
    ∀ (faults : List Fault) (i : Nat) {r : Trail} {gone : List (Value × Bool)}, Account num r gone →
      (∀ e ∈ faults, e.name ≠ "server.activity") → ∃ r', r' = (faults.zipIdx i).foldl
        (fun r e => r.capture num (draws e.2).1 (draws e.2).2 e.1.name) r ∧ (∃ gone', Account num r' gone') ∧
      (r'.enqueued.map (reported k)).sum = (r.enqueued.map (reported k)).sum ∧
      r'.enqueued.filterMap faultOf = r.enqueued.filterMap faultOf ++ faults.map Fault.name
  | [], _, r, gone, h, _ => ⟨r, rfl, ⟨gone, h⟩, rfl, (List.append_nil _).symm⟩
  | e :: faults, i, r, _, h, hne => by
    obtain ⟨more, hone⟩ := h.capture num (draws i).1 (draws i).2 e.name
    obtain ⟨r', hr', hgone, hsum, hfaults⟩ :=
      Account.captures draws k faults (i + 1) hone (fun x hx => hne x (List.mem_cons_of_mem _ hx))
    refine ⟨r', by rw [hr', List.zipIdx_cons, List.foldl_cons], hgone, ?_, ?_⟩
    · rw [hsum]
      show ((r.enqueued ++ [_]).map (reported k)).sum = _
      rw [List.map_append, List.sum_append, List.map_singleton, List.sum_singleton,
        reported_mark r.now _ _ (hne e List.mem_cons_self), Nat.add_zero]
    · rw [hfaults]
      show (r.enqueued ++ [_]).filterMap faultOf ++ _ = _
      rw [List.filterMap_append, List.filterMap_cons, faultOf_mark, List.filterMap_nil, List.append_assoc,
        List.map_cons, List.singleton_append]

/-- An event put in the queue. -/
theorem Account.enqueue {r : Trail} {gone : List (Value × Bool)} (h : Account num r gone) (id timestamp name : String)
    (properties : Value) (k : String) :
    ∃ r', r' = r.step num (.enqueue id timestamp name properties) ∧ (∃ gone', Account num r' gone') ∧
      (r'.enqueued.map (reported k)).sum =
        (r.enqueued.map (reported k)).sum + (if name = "server.activity" then counter k properties else 0) ∧
      r'.enqueued.filterMap faultOf = r.enqueued.filterMap faultOf := by
  obtain ⟨more, hone⟩ := h.step num (.enqueue id timestamp name properties)
  refine ⟨_, rfl, ⟨_, hone⟩, ?_, ?_⟩
  · show ((r.enqueued ++ [_]).map (reported k)).sum = _
    rw [List.map_append, List.sum_append, List.map_singleton, List.sum_singleton, reported_event]
  · show (r.enqueued ++ [_]).filterMap faultOf = _
    rw [List.filterMap_append, List.filterMap_cons, faultOf_event, List.filterMap_nil, List.append_nil]

end Telemetry

/-! ## Which errors are remembered -/

/-- **Pigeonhole over a stretch of time**: what keeps its distance from others of its name is at most as often in less than
that distance as there are names. -/
theorem length_le_of_spaced {α κ : Type} {key : α → κ} {time : α → Nat} {gap : Nat} {l : List α} {names : List κ} (lo : Nat)
    (hn : ∀ a ∈ l, key a ∈ names) (hs : l.Pairwise (fun a b => key a = key b → time a + gap ≤ time b))
    (hl : ∀ a ∈ l, lo ≤ time a ∧ time a < lo + gap) : l.length ≤ names.length := by
  have hnodup : (l.map key).Nodup := by
    refine List.pairwise_map.2 (hs.imp_of_mem (fun {a b} ha hb h he => ?_))
    have hgap := h he
    have hlo := (hl a ha).1
    have hhi := (hl b hb).2
    omega
  have hsub : l.map key ⊆ names := fun x hx => by
    obtain ⟨a, ha, rfl⟩ := List.mem_map.1 hx
    exact hn a ha
  have hle := (List.subperm_of_subset hnodup hsub).length_le
  rwa [List.length_map] at hle

/-- The errors remembered up to now since they were last taken. -/
structure Recent (now : Nat) (recent : List Fault) : Prop where
  ordered : recent.Pairwise (fun a b => a.time ≤ b.time)
  spaced : recent.Pairwise (fun a b => a.name = b.name → a.time + 60000 ≤ b.time)
  past : ∀ e ∈ recent, e.time ≤ now

namespace Recent

theorem nil (now : Nat) : Recent now [] := by
  refine ⟨.nil, .nil, fun e he => ?_⟩
  cases he

theorem mono {now later : Nat} {recent : List Fault} (h : Recent now recent) (hle : now ≤ later) : Recent later recent :=
  ⟨h.ordered, h.spaced, fun e he => Nat.le_trans (h.past e he) hle⟩

/-- **An error of the last minute is among the last sixteen.** -/
theorem kept {now time : Nat} {recent : List Fault} (h : Recent now recent) (hn : ∀ e ∈ recent, e.name ∈ faultNames)
    (ht : now ≤ time) {e : Fault} (he : e ∈ recent) (hin : time < e.time + 60000) :
    e ∈ recent.drop (recent.length - 16) := by
  have hsplit := List.take_append_drop (recent.length - 16) recent
  rcases List.mem_append.1 (hsplit.symm ▸ he) with hfront | hback
  · have hord := h.ordered
    have hspaced := h.spaced
    rw [← hsplit] at hord hspaced
    have hlen : (recent.drop (recent.length - 16)).length ≤ faultNames.length := by
      refine length_le_of_spaced e.time (fun a ha => hn a (List.drop_subset _ _ ha))
        (List.pairwise_append.1 hspaced).2.1 (fun a ha => ⟨(List.pairwise_append.1 hord).2.2 e hfront a ha, ?_⟩)
      have hpast := h.past a (List.drop_subset _ _ ha)
      omega
    have hpos : 0 < (recent.take (recent.length - 16)).length := List.length_pos_of_mem hfront
    rw [List.length_take] at hpos
    rw [List.length_drop, show faultNames.length = 5 from rfl] at hlen
    omega
  · exact hback

/-- An error is held back by one of its name in the last minute. -/
theorem held {now time : Nat} {recent : List Fault} (h : Recent now recent) (hn : ∀ e ∈ recent, e.name ∈ faultNames)
    (ht : now ≤ time) (name : String) :
    (recent.drop (recent.length - 16)).any (fun e => decide (e.name = name) && decide (time - e.time < 60000)) = false ↔
      ∀ e ∈ recent, e.name = name → e.time + 60000 ≤ time := by
  rw [List.any_eq_false]
  refine ⟨fun hall e he hname => ?_, fun hall e he hheld => ?_⟩
  · by_contra hin
    refine hall e (h.kept hn ht he (by omega)) ?_
    rw [Bool.and_eq_true, decide_eq_true_eq, decide_eq_true_eq]
    exact ⟨hname, by omega⟩
  · rw [Bool.and_eq_true, decide_eq_true_eq, decide_eq_true_eq] at hheld
    have hgap := hall e (List.drop_subset _ _ he) hheld.1
    omega

theorem concat {now time : Nat} {recent : List Fault} (h : Recent now recent) (ht : now ≤ time) {name : String}
    (hfree : ∀ e ∈ recent, e.name = name → e.time + 60000 ≤ time) : Recent time (recent ++ [⟨name, time⟩]) := by
  refine ⟨?_, ?_, ?_⟩
  · refine List.pairwise_append.2 ⟨h.ordered, List.pairwise_singleton _ _, fun a ha => List.forall_mem_singleton.2 ?_⟩
    exact Nat.le_trans (h.past a ha) ht
  · refine List.pairwise_append.2 ⟨h.spaced, List.pairwise_singleton _ _, fun a ha => List.forall_mem_singleton.2 ?_⟩
    exact hfree a ha
  · exact List.forall_mem_append.2 ⟨(h.mono ht).past, List.forall_mem_singleton.2 (Nat.le_refl time)⟩

end Recent

/-! ## Runs -/

theorem faultName_mem {event name : String} (h : faultName event = some name) : name ∈ faultNames := by
  unfold faultName at h
  split at h
  · cases h; decide
  · split at h
    · cases h; decide
    · split at h
      · rename_i hmem
        cases h
        simp only [faultNames, List.mem_cons, List.not_mem_nil, or_false] at hmem ⊢
        tauto
      · cases h

theorem ne_activity {name : String} (h : name ∈ faultNames) : name ≠ "server.activity" := by
  rintro rfl
  revert h
  decide

theorem counter_of_noFields {a : Value} (h : hasFields a = false) (k : String) : counter k a = 0 := by
  cases a with
  | obj fields =>
    cases fields with
    | nil => rfl
    | cons f fields => cases h
  | _ => rfl

/-- When an event that is counted or remembered happens. -/
def MonitorOp.clock : MonitorOp → Option Nat
  | .event time _ _ => some time
  | _ => none

namespace Monitor

variable (num : Number → String)

/-- **Where each count and each error is.** -/
structure Reported (m : Monitor) : Prop where
  account : ∃ gone, Telemetry.Account num m.trail gone
  object : m.activity.isObject = true
  counts : ∀ k, k ≠ "windowMs" → m.counted.count k < 2 ^ 64 → m.counted.count k =
    (m.trail.enqueued.map (reported k)).sum + m.sampler.held k + counter k m.activity
  told : m.taken.map Fault.name = m.trail.enqueued.filterMap faultOf ++ m.sampler.faults.map Fault.name
  kept : m.errors = m.recent.drop (m.recent.length - 16)
  known : ∀ e ∈ m.recent, e.name ∈ faultNames
  names : ∀ e ∈ m.sampler.faults, e.name ∈ faultNames

namespace Reported

variable {num} {m : Monitor}

theorem remember (h : m.Reported num) {name : String} (hn : name ∈ faultNames) (time : Nat) :
    (m.remember name time).Reported num := by
  unfold Monitor.remember
  split
  · exact h
  · refine ⟨h.account, h.object, h.counts, h.told, ?_,
      List.forall_mem_append.2 ⟨h.known, List.forall_mem_singleton.2 hn⟩, h.names⟩
    have hlen : m.errors.length = min m.recent.length 16 := by
      rw [h.kept, List.length_drop]
      omega
    show (if 16 < (m.errors ++ [_]).length then (m.errors ++ [_]).drop 1 else m.errors ++ [_]) =
      (m.recent ++ [(⟨name, time⟩ : Fault)]).drop ((m.recent ++ [(⟨name, time⟩ : Fault)]).length - 16)
    rw [List.length_append, List.length_append, List.length_singleton, hlen]
    split
    · rename_i hfull
      rw [List.drop_append_of_le_length (by omega), h.kept, List.drop_drop, List.drop_append_of_le_length (by omega)]
      exact congrArg (fun n => m.recent.drop n ++ _) (by omega)
    · rename_i hfree
      rw [h.kept, List.drop_append_of_le_length (by omega)]
      exact congrArg (fun n => m.recent.drop n ++ _) (by omega)

/-- What an event counts is in the counters. -/
theorem counted (h : m.Reported num) (ks : List String) :
    Reported num { m with activity := ks.foldl count m.activity, counted := m.counted ++ ks } := by
  refine ⟨h.account, ?_, fun k hk hlt => ?_, h.told, h.kept, h.known, h.names⟩
  · show (ks.foldl count m.activity).isObject = true
    have hobj := h.object
    generalize m.activity = a at hobj
    induction ks generalizing a with
    | nil => exact hobj
    | cons k ks ih => exact ih _ (isObject_count hobj k)
  · replace hlt : (m.counted ++ ks).count k < 2 ^ 64 := hlt
    show (m.counted ++ ks).count k =
      (m.trail.enqueued.map (reported k)).sum + m.sampler.held k + counter k (ks.foldl count m.activity)
    rw [List.count_append] at hlt ⊢
    have hm := h.counts k hk (by omega)
    rw [(counter_tally ks h.object k (by omega)).2]
    omega

theorem event (h : m.Reported num) (time : Nat) (event : String) (details : Value) :
    (m.event time event details).Reported num := by
  unfold Monitor.event
  split
  · exact h.counted _
  · rename_i hname
    exact (h.counted _).remember (faultName_mem hname) time

/-- **A report hands over what was taken.** -/
theorem report (h : m.Reported num) {time : Nat} {faults : List Fault} {stats activity : Value}
    (hs : m.sampler = .answered time faults stats activity) (draws : Nat → String × String) (rss now later : Nat)
    (response : Option Nat) : (m.report num time faults stats activity draws rss now later response).Reported num := by
  have hnames : ∀ e ∈ faults, e.name ≠ "server.activity" := fun e he =>
    ne_activity (h.names e (by rw [hs]; exact he))
  have hcaptures := fun k => Telemetry.Account.captures num draws k faults 0 h.account.choose_spec hnames
  have hheld : ∀ k, m.sampler.held k = counter k activity := fun k => by rw [hs]; rfl
  unfold Monitor.report
  dsimp only
  generalize hr : faults.zipIdx.foldl (fun r e => r.capture num (draws e.2).1 (draws e.2).2 e.1.name) m.trail = r
  -- the counters, if there are any
  generalize hr₁ : (if hasFields activity then
    r.step num (.enqueue (draws faults.length).1 (draws faults.length).2 "server.activity"
      (activity.set "windowMs" (.ofNat (time - m.window)))) else r) = r₁
  generalize (((stats.set "rssBytes" (.ofNat rss)).set "uptimeSeconds" (.ofNat ((time - m.started) / 1000))).set
    "telemetryDropped" (.ofNat r₁.now.dropped)) = metrics
  have hfold : ∀ k, (∃ gone, Telemetry.Account num r gone) ∧
      (r.enqueued.map (reported k)).sum = (m.trail.enqueued.map (reported k)).sum ∧
      r.enqueued.filterMap faultOf = m.trail.enqueued.filterMap faultOf ++ faults.map Fault.name := fun k => by
    obtain ⟨r', hr', hrest⟩ := hcaptures k
    rw [hr] at hr'
    exact hr' ▸ hrest
  have hactivity : ∀ k, k ≠ "windowMs" → (∃ gone, Telemetry.Account num r₁ gone) ∧
      (r₁.enqueued.map (reported k)).sum = (m.trail.enqueued.map (reported k)).sum + counter k activity ∧
      r₁.enqueued.filterMap faultOf = m.trail.enqueued.filterMap faultOf ++ faults.map Fault.name := fun k hk => by
    obtain ⟨⟨gone, hgone⟩, hsum, hfaults⟩ := hfold k
    rw [← hr₁]
    split
    · obtain ⟨r', rfl, hgone', hsum', hfaults'⟩ := hgone.enqueue num (draws faults.length).1 (draws faults.length).2
        "server.activity" (activity.set "windowMs" (.ofNat (time - m.window))) k
      refine ⟨hgone', ?_, hfaults'.trans hfaults⟩
      rw [hsum', hsum, if_pos rfl, counter, Value.idx_set_ne hk]
      rfl
    · rename_i hnone
      exact ⟨⟨gone, hgone⟩, by rw [hsum, counter_of_noFields (eq_false_of_ne_true hnone) k]; rfl, hfaults⟩
  have hmetrics : ∀ k, k ≠ "windowMs" → ∃ r₂, r₂ = r₁.step num (.enqueue (draws (faults.length + 1)).1
        (draws (faults.length + 1)).2 "server.metrics" metrics) ∧ (∃ gone, Telemetry.Account num r₂ gone) ∧
      (r₂.enqueued.map (reported k)).sum = (m.trail.enqueued.map (reported k)).sum + counter k activity ∧
      r₂.enqueued.filterMap faultOf = m.trail.enqueued.filterMap faultOf ++ faults.map Fault.name := fun k hk => by
    obtain ⟨⟨gone, hgone⟩, hsum, hfaults⟩ := hactivity k hk
    obtain ⟨r₂, hr₂, hgone', hsum', hfaults'⟩ := hgone.enqueue num (draws (faults.length + 1)).1
      (draws (faults.length + 1)).2 "server.metrics" metrics k
    exact ⟨r₂, hr₂, hgone', by rw [hsum', hsum, if_neg (by decide)]; rfl, hfaults'.trans hfaults⟩
  refine ⟨?_, h.object, fun k hk hlt => ?_, ?_, h.kept, h.known, ?_⟩
  · obtain ⟨r₂, rfl, ⟨gone, hgone⟩, -⟩ := hmetrics "" (by decide)
    obtain ⟨more, hmore⟩ := hgone.step num (.flush now later false response)
    exact ⟨_, hmore⟩
  · obtain ⟨r₂, hr₂, -, hsum, -⟩ := hmetrics k hk
    have hm := h.counts k hk hlt
    rw [hheld] at hm
    rw [hr₂] at hsum
    show m.counted.count k = _ + 0 + counter k m.activity
    rw [hm]
    exact congrArg (· + counter k m.activity) hsum.symm
  · obtain ⟨r₂, hr₂, -, -, hfaults⟩ := hmetrics "" (by decide)
    rw [hr₂] at hfaults
    have htold := h.told
    rw [hs] at htold
    show _ = _ ++ []
    rw [List.append_nil, htold]
    exact hfaults.symm
  · intro e he
    cases he

/-- **Each step keeps everything accounted for.** -/
theorem step (h : m.Reported num) (op : MonitorOp) : (m.step num op).Reported num := by
  cases op with
  | event time event details => exact h.event time event details
  | ask time =>
    unfold Monitor.step
    dsimp only
    split
    · rename_i hs
      refine ⟨h.account, h.object, fun k hk hlt => ?_, ?_, h.kept, h.known, fun e he => by cases he⟩
      · have hm := h.counts k hk hlt
        rwa [hs] at hm
      · have htold := h.told
        rwa [hs] at htold
    · exact h
  | takeFaults =>
    unfold Monitor.step
    dsimp only
    split
    · rename_i time hs
      refine ⟨h.account, h.object, fun k hk hlt => ?_, ?_, rfl, (fun e he => by cases he), fun e he => ?_⟩
      · have hm := h.counts k hk hlt
        rwa [hs] at hm
      · have htold := h.told
        rw [hs] at htold
        show (m.taken ++ m.errors).map Fault.name = m.trail.enqueued.filterMap faultOf ++ m.errors.map Fault.name
        rw [List.map_append, htold]
        exact congrArg (· ++ m.errors.map Fault.name) (List.append_nil _)
      · replace he : e ∈ m.errors := he
        rw [h.kept] at he
        exact h.known e (List.drop_subset _ _ he)
    · exact h
  | takeActivity stats =>
    unfold Monitor.step
    dsimp only
    split
    · rename_i time faults hs
      have hnames := h.names
      have htold := h.told
      rw [hs] at hnames htold
      refine ⟨h.account, rfl, fun k hk hlt => ?_, htold, h.kept, h.known, hnames⟩
      have hm := h.counts k hk hlt
      rw [hs] at hm
      exact hm
    · exact h
  | report draws rss now later response =>
    unfold Monitor.step
    dsimp only
    split
    · rename_i hs
      exact h.report hs draws rss now later response
    · exact h

theorem run : ∀ (ops : List MonitorOp) {m : Monitor}, m.Reported num → (m.run num ops).Reported num
  | [], _, h => h
  | op :: ops, _, h => run ops (h.step op)

theorem start {project release os session : String} {t : Telemetry}
    (hnew : Telemetry.new project release os session = some t) (started : Nat) :
    Reported num { trail := { now := t }, started, window := started } := by
  refine ⟨⟨[], Telemetry.Account.start num hnew⟩, rfl, fun _ _ _ => rfl, rfl, rfl, (fun e he => ?_), fun e he => ?_⟩
  all_goals cases he

end Reported

/-- **An error is remembered unless one of its name was in the last minute.** -/
theorem remember_recent {m : Monitor} {now time : Nat} (name : String) (h : m.Reported num) (hr : Recent now m.recent)
    (ht : now ≤ time) :
    ((m.remember name time).recent = m.recent ++ [⟨name, time⟩] ↔
      ∀ e ∈ m.recent, e.name = name → e.time + 60000 ≤ time) ∧ Recent time (m.remember name time).recent := by
  have hheld := hr.held h.known ht name
  rw [← h.kept] at hheld
  unfold remember
  split
  · rename_i hany
    refine ⟨⟨fun he => ?_, fun hfree => ?_⟩, hr.mono ht⟩
    · have hlen := congrArg List.length he
      rw [List.length_append, List.length_singleton] at hlen
      omega
    · rw [hheld.2 hfree] at hany
      cases hany
  · rename_i hnone
    have hfree := hheld.1 (eq_false_of_ne_true hnone)
    exact ⟨⟨fun _ => hfree, fun _ => rfl⟩, hr.concat ht hfree⟩

/-- Each step keeps the distance between the errors of a name. -/
theorem recent_step {m : Monitor} {now later : Nat} (h : m.Reported num) (hr : Recent now m.recent) (op : MonitorOp)
    (hle : now ≤ later) (hop : op.clock.all (fun t => decide (now ≤ t ∧ t ≤ later)) = true) :
    Recent later (m.step num op).recent := by
  cases op with
  | event time event details =>
    have ht := of_decide_eq_true hop
    show Recent later (m.event time event details).recent
    unfold Monitor.event
    split
    · exact hr.mono hle
    · exact (remember_recent num _ (h.counted (tally event details)) hr ht.1).2.mono ht.2
  | ask time =>
    unfold step
    dsimp only
    split <;> exact hr.mono hle
  | takeFaults =>
    unfold step
    dsimp only
    split
    · exact .nil later
    · exact hr.mono hle
  | takeActivity stats =>
    unfold step
    dsimp only
    split <;> exact hr.mono hle
  | report draws rss now' later' response =>
    unfold step
    dsimp only
    split
    · unfold report
      exact hr.mono hle
    · exact hr.mono hle

/-- And so does every run, of which the clock goes forward. -/
theorem recent_run : ∀ (ops : List MonitorOp) {m : Monitor} {now later : Nat}, m.Reported num → Recent now m.recent →
    now ≤ later → (ops.filterMap MonitorOp.clock).Pairwise (· ≤ ·) →
    (∀ t ∈ ops.filterMap MonitorOp.clock, now ≤ t ∧ t ≤ later) → Recent later (m.run num ops).recent
  | [], _, _, _, _, hr, hle, _, _ => hr.mono hle
  | op :: ops, m, now, later, h, hr, hle, hsorted, hin => by
    cases hc : op.clock with
    | none =>
      rw [List.filterMap_cons_none hc] at hsorted hin
      have hstep := recent_step num h hr op (Nat.le_refl now) (by rw [hc]; rfl)
      exact recent_run ops (h.step op) hstep hle hsorted hin
    | some t =>
      rw [List.filterMap_cons_some hc] at hsorted hin
      obtain ⟨hhead, htail⟩ := List.pairwise_cons.1 hsorted
      have ht := hin t List.mem_cons_self
      have hstep := recent_step num h hr op ht.1 (by
        rw [hc]
        exact decide_eq_true ⟨ht.1, Nat.le_refl t⟩)
      exact recent_run ops (h.step op) hstep ht.2 htail
        (fun x hx => ⟨hhead x hx, (hin x (List.mem_cons_of_mem _ hx)).2⟩)

end Monitor

/-- **Nothing counted is lost or reported twice**, in any interleaving of events and the sampler's steps, over a clock that
goes forward.  Each counter is what the reports in the queue's history say of it, what the sampler has taken, and what is
counted since; each event put in the queue was accepted, dropped and counted as such, or is in it; each error taken is
captured once, in order; the errors kept are the last sixteen since they were last taken, and one is remembered exactly if
none of its name was in the minute before it since then. -/
theorem activity_is_reported (num : Number → String) {project release os session : String} {t : Telemetry}
    (hnew : Telemetry.new project release os session = some t) (started : Nat) (ops : List MonitorOp)
    (hclock : (ops.filterMap MonitorOp.clock).Pairwise (· ≤ ·)) :
    let start : Monitor := { trail := { now := t }, started, window := started }
    let m := start.run num ops
    (∀ k, k ≠ "windowMs" → m.counted.count k < 2 ^ 64 → m.counted.count k =
      (m.trail.enqueued.map (reported k)).sum + m.sampler.held k + counter k m.activity) ∧
    (∃ gone : List (Value × Bool), m.trail.enqueued = gone.map Prod.fst ++ m.trail.now.queue ∧
      Telemetry.accepted m.trail.posts = (gone.filter Prod.snd).map Prod.fst ∧
      m.trail.now.dropped = (gone.filter (fun g => !g.2)).length) ∧
    m.taken.map Fault.name = m.trail.enqueued.filterMap faultOf ++ m.sampler.faults.map Fault.name ∧
    m.errors = m.recent.drop (m.recent.length - 16) ∧
    ∀ before time event details after name, ops = before ++ .event time event details :: after →
      faultName event = some name →
      let x := start.run num before
      ((x.event time event details).recent = x.recent ++ [⟨name, time⟩] ↔
        ∀ e ∈ x.recent, e.name = name → e.time + 60000 ≤ time) := by
  intro start m
  have hstart : start.Reported num := .start hnew started
  have h : m.Reported num := hstart.run ops
  obtain ⟨gone, hgone⟩ := h.account
  refine ⟨h.counts, ⟨gone, hgone.enqueued, hgone.accepted, hgone.dropped⟩, h.told, h.kept,
    fun before time event details after name hops hname => ?_⟩
  intro x
  rw [hops, List.filterMap_append, List.filterMap_cons_some (show MonitorOp.clock (.event time event details) = _ from rfl)]
    at hclock
  obtain ⟨hbefore, -, hle⟩ := List.pairwise_append.1 hclock
  have hx : x.Reported num := hstart.run before
  have hr : Recent time x.recent :=
    Monitor.recent_run num before hstart (.nil 0) (Nat.zero_le time) hbefore
      (fun s hs => ⟨Nat.zero_le s, hle s hs time List.mem_cons_self⟩)
  have hexact := (Monitor.remember_recent num name (hx.counted (tally event details)) hr (Nat.le_refl time)).1
  unfold Monitor.event
  rw [hname]
  exact hexact

/-- Two connections are reported and one is yet to be; of two errors within a minute one is captured. -/
theorem activity_is_reported_sampled :
    ∃ t, Telemetry.new "no-logic" "1.0.0" "linux" "session" = some t ∧
      let ops : List MonitorOp := [.event 5 "connection.connected" .null, .event 6 "server.fatal" .null,
        .event 9 "server.fatal" .null, .ask 20, .takeFaults, .event 21 "connection.connected" .null, .takeActivity (.obj []),
        .report (fun _ => ("id", "time")) 0 22 23 (some 204), .event 30 "connection.connected" .null]
      let m := Monitor.run (fun _ => "0") { trail := { now := t }, started := 0, window := 0 } ops
      m.counted.count "connections" = 3 ∧ counter "connections" m.activity = 1 ∧
        (m.trail.enqueued.map (reported "connections")).sum = 2 ∧
        m.trail.enqueued.filterMap faultOf = ["server.fatal"] ∧ m.errors = m.recent.drop (m.recent.length - 16) :=
  ⟨_, rfl, by decide +kernel, by decide +kernel, by decide +kernel, by decide +kernel,
    (activity_is_reported (fun _ => "0") (show Telemetry.new "no-logic" "1.0.0" "linux" "session" = some _ from rfl) 0
      [.event 5 "connection.connected" .null, .event 6 "server.fatal" .null,
        .event 9 "server.fatal" .null, .ask 20, .takeFaults, .event 21 "connection.connected" .null, .takeActivity (.obj []),
        .report (fun _ => ("id", "time")) 0 22 23 (some 204), .event 30 "connection.connected" .null]
      (by decide)).2.2.2.1⟩

end Relay
