import GameRelay.Json
/-!
# Telemetry — events queued and posted in batches (`telemetry.rs`)

`Trail` keeps what has been enqueued and posted so far, `Account` says where each event went.  Events leave the queue at
its front only, accepted or dropped, so the account is one list (`Account.step`, `Account.run`), and **no event is lost
or accepted twice** (`queue_conserved`).
-/
namespace Relay

/-- `^[a-z0-9][a-z0-9_-]{0,63}$` -/
def projectOk (s : String) : Bool :=
  match s.toList with
  | [] => false
  | c :: cs => (c.isLower || c.isDigit) && decide (cs.length ≤ 63) &&
      cs.all (fun c => c.isLower || c.isDigit || c = '_' || c = '-')

/-- `^[a-zA-Z0-9._+\-]{1,64}$` -/
def releaseOk (s : String) : Bool :=
  decide (1 ≤ s.toList.length ∧ s.toList.length ≤ 64) &&
    s.toList.all (fun c => c.isAlphanum || c = '.' || c = '_' || c = '+' || c = '-')

abbrev Project := {s : String // projectOk s = true}

structure Telemetry where
  project : Project
  release : String
  platform : String
  session : String
  queue : List Value := []
  dropped : Nat := 0
  failures : Nat := 0
  next : Nat := 0

namespace Telemetry

def new (project release os session : String) : Option Telemetry :=
  if h : projectOk project = true ∧ releaseOk release = true then
    some { project := ⟨project, h.1⟩, release, platform := "rust-" ++ os, session }
  else none

def event (t : Telemetry) (id timestamp name : String) (properties : Value) : Value :=
  .obj [("id", .str id), ("timestamp", .str timestamp), ("type", .str "event"), ("name", .str name),
    ("sessionId", .str t.session), ("release", .str t.release), ("platform", .str t.platform), ("properties", properties)]

/-- The body of a post. -/
def body (t : Telemetry) (batch : List Value) : Value :=
  .obj [("project", .str t.project.1), ("events", .arr batch)]

/-- The events of a body. -/
def events (body : Value) : List Value := ((body.idx "events").asArray).getD []

/-- A status that settles the batch: it was accepted, or will never be. -/
def success (response : Option Nat) : Bool := response.any (fun code => decide (200 ≤ code ∧ code < 300))

def clientError (response : Option Nat) : Bool :=
  response.any (fun code => decide (400 ≤ code ∧ code < 500 ∧ code ≠ 408 ∧ code ≠ 429))

variable (num : Number → String)

def bytes (queue : List Value) : Nat := (queue.map (fun v => Json.textSize num v)).sum

/-- Events leave at the front while the queue is too long, with the count of those dropped. -/
def evict : List Value → Nat → List Value × Nat
  | [], dropped => ([], dropped)
  | v :: queue, dropped =>
    if (v :: queue).length > 256 ∨ bytes num (v :: queue) > 512 * 1024 then evict queue (dropped + 1)
    else (v :: queue, dropped)

def enqueue (t : Telemetry) (id timestamp name : String) (properties : Value) : Telemetry :=
  let (queue, dropped) := evict num (t.queue ++ [t.event id timestamp name properties]) t.dropped
  { t with queue, dropped }

/-- The next batch, its bytes counted from 128 for what stands around the events. -/
def take : List Value → List Value → Nat → List Value × List Value
  | [], batch, _ => (batch, [])
  | v :: queue, batch, bytes =>
    let n := Json.textSize num v + 1
    if batch.length ≥ 32 ∨ bytes + n > 64 * 1024 then (batch, v :: queue)
    else take queue (batch ++ [v]) (bytes + n)

/-- The batch back at the front, in its order, and a later time. -/
def retry (t : Telemetry) (batch : List Value) (later : Nat) : Telemetry :=
  let failures := min (t.failures + 1) 10
  let queue := batch.reverse.foldl (fun queue v => v :: queue) t.queue
  { t with
    failures, next := later + min (1000 * 2 ^ (failures - 1)) 300000, queue := queue.take 256,
    dropped := t.dropped + (queue.length - 256) }

/-- What becomes of a batch that has been posted. -/
def settle (t : Telemetry) (batch : List Value) (later : Nat) (response : Option Nat) : Telemetry :=
  if success response then { t with failures := 0, next := 0 }
  else if clientError response then
    { t with dropped := t.dropped + batch.length, failures := 0, next := later + 60000 }
  else t.retry batch later

/-- One flush, with the time before and after the post and its status (`none` when there is no response).  The body is
the one posted. -/
def flush (t : Telemetry) (now later : Nat) (force : Bool) (response : Option Nat) : Telemetry × Option Value :=
  if t.queue.isEmpty || (!force && decide (now < t.next)) then (t, none)
  else
    let (batch, queue) := take num t.queue [] 128
    (settle { t with queue } batch later response, some (t.body batch))

/-! ## One call -/

/-- **The overflow is dropped from the front**, and counted. -/
theorem evict_spec : ∀ (queue : List Value) (dropped : Nat),
    ∃ lost, queue = lost ++ (evict num queue dropped).1 ∧ (evict num queue dropped).2 = dropped + lost.length ∧
      (evict num queue dropped).1.length ≤ 256
  | [], dropped => ⟨[], rfl, rfl, Nat.zero_le _⟩
  | v :: queue, dropped => by
    unfold evict
    split
    · obtain ⟨lost, hq, hd, hl⟩ := evict_spec queue (dropped + 1)
      refine ⟨v :: lost, congrArg (v :: ·) hq, ?_, hl⟩
      rw [hd, List.length_cons]
      omega
    · rename_i h
      exact ⟨[], rfl, rfl, Nat.le_of_not_lt (fun hl => h (.inl hl))⟩

/-- **A batch is the front of the queue**, at most 32 events and within the bytes. -/
theorem take_spec : ∀ (queue batch : List Value) (size : Nat), batch.length ≤ 32 → size ≤ 64 * 1024 →
    ∃ front, queue = front ++ (take num queue batch size).2 ∧ (take num queue batch size).1 = batch ++ front ∧
      (batch ++ front).length ≤ 32 ∧ size + bytes num front + front.length ≤ 64 * 1024
  | [], batch, size, hb, hs => ⟨[], rfl, (List.append_nil batch).symm, by simpa using hb, by simpa [bytes] using hs⟩
  | v :: queue, batch, size, hb, hs => by
    unfold take
    dsimp only
    split
    · exact ⟨[], rfl, (List.append_nil batch).symm, by simpa using hb, by simpa [bytes] using hs⟩
    · rename_i h
      have hlen : (batch ++ [v]).length ≤ 32 := by
        rw [List.length_append, List.length_singleton]
        omega
      obtain ⟨front, hq, ht, hl, hsize⟩ := take_spec queue (batch ++ [v]) (size + (Json.textSize num v + 1)) hlen (by omega)
      refine ⟨v :: front, congrArg (v :: ·) hq, ?_, ?_, ?_⟩
      · rw [ht, List.append_assoc, List.singleton_append]
      · rwa [List.append_assoc, List.singleton_append] at hl
      · simp only [bytes, List.map_cons, List.sum_cons, List.length_cons] at hsize ⊢
        omega

/-- The first event is always taken, unless it is too large for any batch. -/
theorem take_ne_nil {v : Value} {queue : List Value} (hv : Json.textSize num v ≤ 65000) :
    (take num (v :: queue) [] 128).1 ≠ [] := by
  obtain ⟨front, -, ht, -, -⟩ := take_spec num queue [v] (128 + (Json.textSize num v + 1)) (by simp) (by omega)
  unfold take
  dsimp only
  rw [if_neg (by simp only [List.length_nil]; omega), List.nil_append, ht]
  exact List.cons_ne_nil _ _

theorem itemsSize_eq (l : List Value) : Json.itemsSize num l = bytes num l + (l.length - 1) := by
  induction l with
  | nil => rfl
  | cons v vs ih =>
    cases vs with
    | nil => simp [Json.itemsSize, bytes]
    | cons w vs =>
      rw [Json.itemsSize, ih]
      simp only [bytes, List.map_cons, List.sum_cons, List.length_cons]
      omega

theorem escapeChar_projectChar {c : Char} (h : (c.isLower || c.isDigit || c = '_' || c = '-') = true) :
    (Json.escapeChar c).utf8ByteSize = 1 := by
  simp only [Bool.or_eq_true, Char.isLower, Char.isDigit, Bool.and_eq_true, decide_eq_true_eq, ge_iff_le,
    UInt32.le_iff_toNat_le] at h
  rcases h with ((h | h) | rfl) | rfl
  · simp at h
    exact Json.escapeChar_plain (by omega) (by omega) (by omega)
  · simp at h
    exact Json.escapeChar_plain (by omega) (by omega) (by omega)
  · decide
  · decide

/-- A project name has at most 64 bytes, and no byte of it is escaped. -/
theorem quoteSize_project (p : Project) : Json.quoteSize p.1 ≤ 66 := by
  obtain ⟨s, hs⟩ := p
  unfold projectOk at hs
  rw [Json.quoteSize]
  split at hs
  · cases hs
  · rename_i c cs he
    simp only [Bool.and_eq_true, decide_eq_true_eq] at hs
    obtain ⟨⟨hc, hlen⟩, hcs⟩ := hs
    have hplain : ∀ d ∈ c :: cs, (Json.escapeChar d).utf8ByteSize = 1 := by
      refine List.forall_mem_cons.2 ⟨escapeChar_projectChar (by simp only [hc, Bool.true_or]), fun d hd => ?_⟩
      exact escapeChar_projectChar (List.all_eq_true.1 hcs d hd)
    rw [he, Json.escapeSize_plain hplain, List.length_cons]
    omega

/-- **A body fits in 64 KiB.** -/
theorem size_body (t : Telemetry) {batch : List Value} (h : 128 + bytes num batch + batch.length ≤ 64 * 1024) :
    Json.textSize num (t.body batch) ≤ 65536 := by
  have hp := quoteSize_project t.project
  simp only [body, Json.textSize, Json.fieldsSize, itemsSize_eq, show Json.quoteSize "project" = 9 from by decide,
    show Json.quoteSize "events" = 8 from by decide]
  omega

/-- **A flush posts nothing, or the front of the queue.** -/
theorem flush_cases (t : Telemetry) (now later : Nat) (force : Bool) (response : Option Nat) :
    t.flush num now later force response = (t, none) ∧ (t.queue = [] ∨ (force = false ∧ now < t.next)) ∨
      ∃ front rest, t.queue = front ++ rest ∧ front.length ≤ 32 ∧ Json.textSize num (t.body front) ≤ 65536 ∧
        (take num t.queue [] 128).1 = front ∧
        t.flush num now later force response =
          (settle { t with queue := rest } front later response, some (t.body front)) := by
  unfold flush
  split
  · rename_i h
    refine .inl ⟨rfl, ?_⟩
    rw [Bool.or_eq_true, Bool.and_eq_true, List.isEmpty_iff, Bool.not_eq_true', decide_eq_true_eq] at h
    exact h
  · obtain ⟨front, hq, ht, hl, hsize⟩ := take_spec num t.queue [] 128 (Nat.zero_le _) (by decide)
    rw [List.nil_append] at ht hl
    refine .inr ⟨front, _, hq, hl, size_body num t hsize, ht, ?_⟩
    rw [← ht]

/-- **A batch that failed is back where it was**, when the queue has room for all of it. -/
theorem queue_retry (t : Telemetry) {batch : List Value} (later : Nat) (h : (batch ++ t.queue).length ≤ 256) :
    (t.retry batch later).queue = batch ++ t.queue ∧ (t.retry batch later).dropped = t.dropped := by
  unfold retry
  dsimp only
  rw [List.foldl_reverse, List.foldr_cons_eq_append, List.map_id']
  exact ⟨List.take_of_length_le h, by omega⟩

theorem queue_failed {t : Telemetry} (ht : t.queue.length ≤ 256) (now later : Nat) (force : Bool)
    {response : Option Nat} (hs : success response = false) (hc : clientError response = false) :
    (t.flush num now later force response).1.queue = t.queue ∧
      (t.flush num now later force response).1.dropped = t.dropped := by
  rcases flush_cases num t now later force response with ⟨h, -⟩ | ⟨front, rest, hq, -, -, -, h⟩
  · rw [h]
    exact ⟨rfl, rfl⟩
  · rw [h]
    unfold settle
    rw [if_neg (by rw [hs]; decide), if_neg (by rw [hc]; decide)]
    rw [hq] at ht
    have hr := queue_retry { t with queue := rest } later ht
    exact ⟨hr.1.trans hq.symm, hr.2⟩

/-! ## Runs -/

inductive Call where
  | enqueue (id timestamp name : String) (properties : Value)
  | flush (now later : Nat) (force : Bool) (response : Option Nat)

/-- The telemetry, with what has been enqueued and posted so far. -/
structure Trail where
  now : Telemetry
  enqueued : List Value := []
  posts : List (Value × Option Nat) := []

def Trail.step (r : Trail) : Call → Trail
  | .enqueue id timestamp name properties =>
    { r with
      now := r.now.enqueue num id timestamp name properties,
      enqueued := r.enqueued ++ [r.now.event id timestamp name properties] }
  | .flush now later force response =>
    let (t, posted) := r.now.flush num now later force response
    { r with now := t, posts := r.posts ++ (posted.map (fun body => (body, response))).toList }

def Trail.run (r : Trail) (calls : List Call) : Trail := calls.foldl (Trail.step num) r

/-- The events of the batches that were accepted. -/
def accepted (posts : List (Value × Option Nat)) : List Value :=
  posts.flatMap (fun p => if success p.2 then events p.1 else [])

/-- **Where each event went**: those that left the queue, in their order and each accepted or dropped, then those in it. -/
structure Account (r : Trail) (gone : List (Value × Bool)) : Prop where
  enqueued : r.enqueued = gone.map Prod.fst ++ r.now.queue
  accepted : accepted r.posts = (gone.filter Prod.snd).map Prod.fst
  dropped : r.now.dropped = (gone.filter (fun g => !g.2)).length
  length : r.now.queue.length ≤ 256
  posts : ∀ p ∈ r.posts, (events p.1).length ≤ 32 ∧ Json.textSize num p.1 ≤ 65536

theorem accepted_append (posts : List (Value × Option Nat)) (body : Value) (response : Option Nat) :
    accepted (posts ++ [(body, response)]) = accepted posts ++ if success response then events body else [] := by
  simp only [accepted, List.flatMap_append, List.flatMap_cons, List.flatMap_nil, List.append_nil]

/-- Events marked alike. -/
theorem filter_mark (f : Value × Bool → Bool) (l : List Value) (b : Bool) (h : ∀ v, f (v, b) = true) :
    (l.map (fun v => (v, b))).filter f = l.map (fun v => (v, b)) :=
  List.filter_eq_self.2 (List.forall_mem_map.2 (fun v _ => h v))

theorem filter_mark_nil (f : Value × Bool → Bool) (l : List Value) (b : Bool) (h : ∀ v, f (v, b) = false) :
    (l.map (fun v => (v, b))).filter f = [] :=
  List.filter_eq_nil_iff.2 (List.forall_mem_map.2 (fun v _ => by rw [h v]; decide))

theorem map_mark (l : List Value) (b : Bool) : (l.map (fun v => (v, b))).map Prod.fst = l := by
  rw [List.map_map]
  exact List.map_id' l

/-- **What becomes of a posted batch**: it is accepted, dropped, or back in the queue. -/
theorem settle_marks (t : Telemetry) (batch : List Value) (later : Nat) (response : Option Nat)
    (hlen : (batch ++ t.queue).length ≤ 256) :
    ∃ more : List (Value × Bool), batch ++ t.queue = more.map Prod.fst ++ (t.settle batch later response).queue ∧
      (if success response then batch else []) = (more.filter Prod.snd).map Prod.fst ∧
      (t.settle batch later response).dropped = t.dropped + (more.filter (fun g => !g.2)).length ∧
      (t.settle batch later response).queue.length ≤ 256 := by
  have hrest : t.queue.length ≤ 256 := by
    rw [List.length_append] at hlen
    omega
  unfold settle
  split
  · refine ⟨batch.map (fun v => (v, true)), by rw [map_mark], ?_, ?_, hrest⟩
    · rw [filter_mark _ _ _ (fun _ => rfl), map_mark]
    · rw [filter_mark_nil _ _ _ (fun _ => rfl)]
      rfl
  · split
    · refine ⟨batch.map (fun v => (v, false)), by rw [map_mark], ?_, ?_, hrest⟩
      · rw [filter_mark_nil _ _ _ (fun _ => rfl)]
        rfl
      · rw [filter_mark _ _ _ (fun _ => rfl), List.length_map]
    · obtain ⟨hq, hd⟩ := queue_retry t later hlen
      exact ⟨[], hq.symm, rfl, hd, hq ▸ hlen⟩

/-- **Each call keeps the account.** -/
theorem Account.step {r : Trail} {gone : List (Value × Bool)} (h : Account num r gone) (c : Call) :
    ∃ more, Account num (r.step num c) (gone ++ more) := by
  cases c with
  | enqueue id timestamp name properties =>
    obtain ⟨lost, hq, hd, hl⟩ :=
      evict_spec num (r.now.queue ++ [r.now.event id timestamp name properties]) r.now.dropped
    refine ⟨lost.map (fun v => (v, false)), ⟨?_, ?_, ?_, hl, h.posts⟩⟩
    · show r.enqueued ++ [_] = _ ++ (evict num _ _).1
      rw [h.enqueued, List.append_assoc, List.map_append, map_mark, List.append_assoc]
      exact congrArg (gone.map Prod.fst ++ ·) hq
    · rw [List.filter_append, filter_mark_nil _ _ _ (fun _ => rfl), List.append_nil]
      exact h.accepted
    · rw [List.filter_append, filter_mark _ _ _ (fun _ => rfl), List.length_append, List.length_map, ← h.dropped]
      exact hd
  | flush now later force response =>
    unfold Trail.step
    dsimp only
    rcases flush_cases num r.now now later force response with ⟨hf, -⟩ | ⟨front, rest, hq, hlen, hsize, -, hf⟩
    · rw [hf]
      refine ⟨[], ?_⟩
      simp only [Option.map_none, Option.toList_none, List.append_nil]
      exact h
    · have hall := h.length
      rw [hq] at hall
      obtain ⟨more, hmore, hmarked, hdropped, hlength⟩ :=
        settle_marks { r.now with queue := rest } front later response hall
      rw [hf]
      refine ⟨more, ⟨?_, ?_, ?_, hlength, ?_⟩⟩
      · show r.enqueued = _
        rw [h.enqueued, hq, hmore, List.map_append, List.append_assoc]
      · show Telemetry.accepted (r.posts ++ [(r.now.body front, response)]) = _
        rw [accepted_append, h.accepted, List.filter_append, List.map_append, ← hmarked]
        rfl
      · rw [List.filter_append, List.length_append, ← h.dropped]
        exact hdropped
      · exact List.forall_mem_append.2 ⟨h.posts, List.forall_mem_singleton.2 ⟨hlen, hsize⟩⟩

/-- **And so does every run.** -/
theorem Account.run : ∀ (calls : List Call) {r : Trail} {gone : List (Value × Bool)}, Account num r gone →
    ∃ gone', Account num (r.run num calls) gone'
  | [], _, gone, h => ⟨gone, h⟩
  | c :: calls, _, _, h => by
    obtain ⟨more, h'⟩ := h.step num c
    exact h'.run calls

/-- The start of a run: nothing has been enqueued. -/
theorem Account.start {project release os session : String} {t : Telemetry}
    (h : new project release os session = some t) : Account num { now := t } [] := by
  unfold new at h
  split at h
  · obtain rfl := Option.some.inj h
    exact ⟨rfl, rfl, rfl, Nat.zero_le _, fun _ h => nomatch h⟩
  · cases h

/-- **No event is lost or accepted twice**: over any calls, the events enqueued are those that left the queue, each
accepted or dropped, and then those in the queue; a batch that failed is back at the front; batches are bounded, and
unless an event is too large none is empty. -/
theorem queue_conserved {project release os session : String} {t : Telemetry}
    (hnew : new project release os session = some t) (calls : List Call) :
    let r := Trail.run num { now := t } calls
    (∃ gone : List (Value × Bool), r.enqueued = gone.map Prod.fst ++ r.now.queue ∧
      accepted r.posts = (gone.filter Prod.snd).map Prod.fst ∧
      r.now.dropped = (gone.filter (fun g => !g.2)).length) ∧
    (r.enqueued.Nodup → (accepted r.posts ++ r.now.queue).Nodup) ∧
    r.now.queue.length ≤ 256 ∧
    (∀ p ∈ r.posts, (events p.1).length ≤ 32 ∧ (Json.text num p.1).utf8ByteSize ≤ 65536) ∧
    (∀ now later force response, success response = false → clientError response = false →
      (r.now.flush num now later force response).1.queue = r.now.queue) ∧
    ∀ now later force response, r.now.queue ≠ [] → (force = true ∨ r.now.next ≤ now) →
      (∀ v ∈ r.enqueued, (Json.text num v).utf8ByteSize ≤ 65000) →
      ∃ body, (r.now.flush num now later force response).2 = some body ∧ events body ≠ [] ∧
        events body <+: r.now.queue := by
  intro r
  obtain ⟨gone, h⟩ := (Account.start num hnew).run num calls
  refine ⟨⟨gone, h.enqueued, h.accepted, h.dropped⟩, fun hnodup => ?_, h.length, fun p hp => ?_,
    fun now later force response hs hc => (queue_failed num h.length now later force hs hc).1,
    fun now later force response hq hdue hsmall => ?_⟩
  · refine hnodup.sublist ?_
    rw [h.enqueued, h.accepted]
    exact ((List.filter_sublist).map Prod.fst).append (List.Sublist.refl _)
  · rw [Json.utf8ByteSize_text]
    exact h.posts p hp
  · rcases flush_cases num r.now now later force response with ⟨-, hheld⟩ | ⟨front, rest, hrest, -, -, ht, hf⟩
    · rcases hheld with hnil | ⟨hforce, hnow⟩
      · exact absurd hnil hq
      · rcases hdue with hdue | hdue
        · rw [hforce] at hdue
          cases hdue
        · omega
    · refine ⟨r.now.body front, by rw [hf], ?_, ⟨rest, hrest.symm⟩⟩
      show front ≠ []
      rw [← ht]
      cases hqueue : r.now.queue with
      | nil => exact absurd hqueue hq
      | cons v queue =>
        have hv : v ∈ r.enqueued := by
          rw [h.enqueued, hqueue]
          exact List.mem_append_right _ List.mem_cons_self
        have hsize := hsmall v hv
        rw [Json.utf8ByteSize_text] at hsize
        exact take_ne_nil num hsize

/-- The batch of a failed post is posted again, and accepted once. -/
theorem queue_conserved_retried :
    ∃ t, new "no-logic" "1.0.0" "linux" "session" = some t ∧
      let calls : List Call := [.enqueue "first" "" "server.metrics" .null, .enqueue "second" "" "server.metrics" .null,
        .flush 0 5 false (some 503), .flush 1005 1006 false (some 204)]
      (accepted (Trail.run (fun _ => "0") { now := t } calls).posts).length = 2 ∧
        (accepted (Trail.run (fun _ => "0") { now := t } calls).posts ++
          (Trail.run (fun _ => "0") { now := t } calls).now.queue).Nodup :=
  ⟨_, rfl, by decide +kernel,
    (queue_conserved (fun _ => "0") (show new "no-logic" "1.0.0" "linux" "session" = some _ from rfl) _).2.1
      (by decide +kernel)⟩

end Telemetry
end Relay
