import Mathlib
import GameRelay.IndexMap
/-!
# Admission — who may open a connection (`admission.rs`)

`acquire` counts an attempt of an address and admits it or not, and a permit that is dropped gives its slot back.  The
system is the three tables, the live permits and the clock; its events are acquires at nondecreasing times and drops of
live permits.  The active table is the live permits, counted (`Exact`).
-/
namespace Relay

namespace IndexMap

variable {κ α : Type} [DecidableEq κ]

theorem length_insertList (k : κ) (v : α) : ∀ l : List (κ × α),
    (insertList k v l).length = if k ∈ l.map Prod.fst then l.length else l.length + 1
  | [] => rfl
  | e :: l => by
    have ih := length_insertList k v l
    unfold insertList
    by_cases he : e.1 = k
    · rw [if_pos he, if_pos (by rw [List.map_cons, he]; exact List.mem_cons_self)]
      rfl
    · have hiff : k ∈ (e :: l).map Prod.fst ↔ k ∈ l.map Prod.fst := by
        rw [List.map_cons, List.mem_cons]
        exact or_iff_right (Ne.symm he)
      rw [if_neg he, List.length_cons, ih, List.length_cons]
      by_cases hk : k ∈ l.map Prod.fst
      · rw [if_pos hk, if_pos (hiff.2 hk)]
      · rw [if_neg hk, if_neg (fun h => hk (hiff.1 h))]

theorem size_insert_le (m : IndexMap κ α) (k : κ) (v : α) : (m.insert k v).size ≤ m.size + 1 := by
  show (insertList k v m.entries).length ≤ m.entries.length + 1
  rw [length_insertList]
  split <;> omega

theorem size_insert_of_contains (m : IndexMap κ α) {k : κ} (v : α) (h : m.contains k = true) :
    (m.insert k v).size = m.size := by
  show (insertList k v m.entries).length = m.entries.length
  exact (length_insertList k v m.entries).trans (if_pos (mem_keys.2 (contains_iff.1 h)))

omit [DecidableEq κ] in
theorem size_retain_le (m : IndexMap κ α) (p : κ → α → Bool) : (m.retain p).size ≤ m.size := List.length_filter_le ..

end IndexMap

/-- The settings `acquire` reads; the loader admits no number above the bound. -/
structure Limits where
  maxConnections : Nat
  maxConnectionsPerIp : Nat
  maxConnectionsPerMinute : Nat
  bounded : maxConnectionsPerMinute ≤ 2147483647

/-- The active permits of each address, their total, and each address's attempts since the time of its entry. -/
structure Admission where
  active : IndexMap String Nat
  total : Nat
  attempts : IndexMap String (Nat × Nat)

namespace Admission

def empty : Admission := ⟨.empty, 0, .empty⟩

/-- `usize::MAX`, where `saturating_add` stops. -/
def usizeMax : Nat := 2 ^ 64 - 1

/-- Entries 60 seconds old are forgotten. -/
def purge (s : Admission) (time : Nat) : Admission :=
  { s with attempts := s.attempts.retain (fun _ e => decide (time - e.1 < 60000)) }

/-- Count one more attempt of the address. -/
def count (s : Admission) (time : Nat) (ip : String) : Admission × Nat :=
  let entry := (s.attempts.get ip).getD (time, 0)
  let n := min (entry.2 + 1) usizeMax
  ({ s with attempts := s.attempts.insert ip (entry.1, n) }, n)

def acquire (lim : Limits) (s : Admission) (time : Nat) (ip : String) : Admission × Bool :=
  let s := s.purge time
  -- an unknown address is refused before it gets an entry
  if s.attempts.contains ip = false ∧ lim.maxConnections * 4 ≤ s.attempts.size then (s, false)
  else
    let (s, n) := s.count time ip
    if lim.maxConnectionsPerMinute < n ∨ lim.maxConnections ≤ s.total ∨
        lim.maxConnectionsPerIp ≤ (s.active.get ip).getD 0 then (s, false)
    else ({ s with total := s.total + 1, active := s.active.insert ip ((s.active.get ip).getD 0 + 1) }, true)

/-- `Permit::drop`; `none` where a counter would underflow. -/
def drop (s : Admission) (ip : String) : Option Admission :=
  if s.total = 0 then none
  else match s.active.get ip with
    | none => some { s with total := s.total - 1 }
    | some 0 => none
    | some (n + 1) =>
      some { s with total := s.total - 1, active := if n = 0 then s.active.shiftRemove ip else s.active.insert ip n }

/-- An acquire of an address at a time, or the drop of one of its permits. -/
inductive Event where
  | acquire (time : Nat) (ip : String)
  | drop (ip : String)

/-- The shared tables, the addresses of the live permits, and the time of the last acquire. -/
structure System where
  admission : Admission
  live : List String
  clock : Nat

def System.start : System := ⟨empty, [], 0⟩

/-- The system after an event, and whether it admitted an attempt; `none` when the event is not possible there, or a
counter underflows. -/
def System.step (lim : Limits) (x : System) : Event → Option (System × Bool)
  | .acquire time ip =>
    if x.clock ≤ time then
      let (s, ok) := acquire lim x.admission time ip
      some (⟨s, if ok then ip :: x.live else x.live, time⟩, ok)
    else none
  | .drop ip => if ip ∈ x.live then (x.admission.drop ip).map (fun s => (⟨s, x.live.erase ip, x.clock⟩, false)) else none

/-- Events one after the other, each with whether it admitted an attempt. -/
inductive Runs (lim : Limits) : System → List (Event × Bool) → System → Prop
  | nil (x : System) : Runs lim x [] x
  | cons {x y z : System} {e : Event} {ok : Bool} {l : List (Event × Bool)} (h : x.step lim e = some (y, ok))
      (hr : Runs lim y l z) : Runs lim x ((e, ok) :: l) z

/-- The tables count the live permits, within the limits. -/
structure Exact (lim : Limits) (x : System) : Prop where
  total : x.admission.total = x.live.length
  active : ∀ ip, (x.admission.active.get ip).getD 0 = x.live.count ip
  nonzero : ∀ ip, x.admission.active.get ip ≠ some 0
  connections : x.admission.total ≤ lim.maxConnections
  perIp : ∀ ip, (x.admission.active.get ip).getD 0 ≤ lim.maxConnectionsPerIp
  attempts : x.admission.attempts.size ≤ 4 * lim.maxConnections

theorem purge_purge (s : Admission) (time : Nat) : (s.purge time).purge time = s.purge time := by
  unfold purge
  simp only [IndexMap.retain, List.filter_filter, Bool.and_self]

theorem acquire_purge (lim : Limits) (s : Admission) (time : Nat) (ip : String) :
    acquire lim (s.purge time) time ip = acquire lim s time ip := by
  unfold acquire
  rw [purge_purge]

/-- What an acquire may do. -/
inductive Acquires (lim : Limits) (s : Admission) (time : Nat) (ip : String) : Admission × Bool → Prop
  | full (hnew : (s.purge time).attempts.get ip = none)
      (hfull : lim.maxConnections * 4 ≤ (s.purge time).attempts.size) : Acquires lim s time ip (s.purge time, false)
  | refused (hroom : (s.purge time).attempts.contains ip = true ∨ (s.purge time).attempts.size < lim.maxConnections * 4) :
      Acquires lim s time ip (((s.purge time).count time ip).1, false)
  | admitted (hroom : (s.purge time).attempts.contains ip = true ∨ (s.purge time).attempts.size < lim.maxConnections * 4)
      (hrate : ((s.purge time).count time ip).2 ≤ lim.maxConnectionsPerMinute) (htotal : s.total < lim.maxConnections)
      (hip : (s.active.get ip).getD 0 < lim.maxConnectionsPerIp) :
      Acquires lim s time ip ({ ((s.purge time).count time ip).1 with
        total := s.total + 1, active := s.active.insert ip ((s.active.get ip).getD 0 + 1) }, true)

theorem acquire_cases (lim : Limits) (s : Admission) (time : Nat) (ip : String) :
    Acquires lim s time ip (acquire lim s time ip) := by
  unfold acquire
  dsimp only
  split
  · rename_i h
    exact .full (IndexMap.contains_eq_false.1 h.1) h.2
  · rename_i h
    have hroom : (s.purge time).attempts.contains ip = true ∨
        (s.purge time).attempts.size < lim.maxConnections * 4 := by
      cases hc : (s.purge time).attempts.contains ip with
      | true => exact .inl rfl
      | false => exact .inr (Nat.not_le.1 (fun hle => h ⟨hc, hle⟩))
    split
    · exact .refused hroom
    · rename_i hok
      rw [not_or, not_or, Nat.not_lt, Nat.not_le, Nat.not_le] at hok
      exact .admitted hroom hok.1 hok.2.1 hok.2.2

section

variable {lim : Limits} {x : System}

theorem size_purge (s : Admission) (time : Nat) : (s.purge time).attempts.size ≤ s.attempts.size :=
  IndexMap.size_retain_le _ _

/-- Counting an attempt keeps the attempt table within its bound. -/
theorem size_count {s : Admission} {time : Nat} {ip : String} (hs : s.attempts.size ≤ 4 * lim.maxConnections)
    (hroom : s.attempts.contains ip = true ∨ s.attempts.size < lim.maxConnections * 4) :
    (s.count time ip).1.attempts.size ≤ 4 * lim.maxConnections := by
  show (s.attempts.insert ip _).size ≤ _
  rcases hroom with hc | hlt
  · rw [IndexMap.size_insert_of_contains _ _ hc]
    exact hs
  · have := IndexMap.size_insert_le s.attempts ip (((s.attempts.get ip).getD (time, 0)).1,
      min (((s.attempts.get ip).getD (time, 0)).2 + 1) usizeMax)
    omega

/-- **A refused acquire leaves the counts alone.** -/
theorem acquire_refused {s t : Admission} {time : Nat} {ip : String} (h : acquire lim s time ip = (t, false)) :
    t.total = s.total ∧ t.active = s.active := by
  have hc := acquire_cases lim s time ip
  rw [h] at hc
  cases hc with
  | full => exact ⟨rfl, rfl⟩
  | refused => exact ⟨rfl, rfl⟩

/-- **An admitted attempt is counted under an entry.** -/
theorem acquire_admitted {s t : Admission} {time : Nat} {ip : String} (h : acquire lim s time ip = (t, true)) :
    t.attempts.contains ip = true := by
  have hc := acquire_cases lim s time ip
  rw [h] at hc
  cases hc with
  | admitted => exact IndexMap.contains_iff.2 ⟨_, IndexMap.get_insert_self _ _ _⟩

theorem Exact.acquire (h : Exact lim x) {s : Admission} {ok : Bool} {time : Nat} {ip : String}
    (ha : Admission.acquire lim x.admission time ip = (s, ok)) :
    Exact lim ⟨s, if ok then ip :: x.live else x.live, time⟩ := by
  have hpurge := Nat.le_trans (size_purge x.admission time) h.attempts
  have hc := acquire_cases lim x.admission time ip
  rw [ha] at hc
  cases hc with
  | full => exact ⟨h.total, h.active, h.nonzero, h.connections, h.perIp, hpurge⟩
  | refused hroom => exact ⟨h.total, h.active, h.nonzero, h.connections, h.perIp, size_count hpurge hroom⟩
  | admitted hroom hrate htotal hip =>
    refine ⟨congrArg (· + 1) h.total, fun a => ?_, fun a => ?_, htotal, fun a => ?_, size_count hpurge hroom⟩
    · show ((x.admission.active.insert ip _).get a).getD 0 = (ip :: x.live).count a
      by_cases ha : a = ip
      · subst ha
        rw [IndexMap.get_insert_self, List.count_cons_self, ← h.active a]
        rfl
      · rw [IndexMap.get_insert_ne _ _ ha, List.count_cons_of_ne (Ne.symm ha)]
        exact h.active a
    · show (x.admission.active.insert ip _).get a ≠ some 0
      by_cases ha : a = ip
      · subst ha
        rw [IndexMap.get_insert_self]
        exact fun he => Nat.succ_ne_zero _ (Option.some.inj he)
      · rw [IndexMap.get_insert_ne _ _ ha]
        exact h.nonzero a
    · show ((x.admission.active.insert ip _).get a).getD 0 ≤ _
      by_cases ha : a = ip
      · subst ha
        rw [IndexMap.get_insert_self]
        exact hip
      · rw [IndexMap.get_insert_ne _ _ ha]
        exact h.perIp a

/-- **A live permit drops without underflow.** -/
theorem Exact.drop (h : Exact lim x) {ip : String} (hip : ip ∈ x.live) :
    ∃ s, x.admission.drop ip = some s ∧ Exact lim ⟨s, x.live.erase ip, x.clock⟩ := by
  have hpos : 0 < x.live.length := List.length_pos_of_mem hip
  have htotal : ¬ x.admission.total = 0 := by rw [h.total]; omega
  have hlen : x.admission.total - 1 = (x.live.erase ip).length := by rw [List.length_erase_of_mem hip, h.total]
  have hconn := h.connections
  have hcount : ∀ a, (x.live.erase ip).count a = if a = ip then x.live.count a - 1 else x.live.count a := fun a => by
    by_cases ha : a = ip
    · subst ha
      rw [if_pos rfl, List.count_erase_self]
    · rw [if_neg ha, List.count_erase_of_ne ha]
  have hone : 0 < x.live.count ip := List.count_pos_iff.2 hip
  have hactive := h.active ip
  unfold Admission.drop
  rw [if_neg htotal]
  cases hg : x.admission.active.get ip with
  | none => rw [hg] at hactive; exact absurd hactive.symm (Nat.ne_of_gt hone)
  | some n =>
    rw [hg] at hactive
    change n = x.live.count ip at hactive
    cases n with
    | zero => exact absurd hg (h.nonzero ip)
    | succ n =>
      have hn : x.live.count ip - 1 = n := by omega
      -- what the table holds of an address afterwards
      have hget : ∀ a, ((if n = 0 then x.admission.active.shiftRemove ip else x.admission.active.insert ip n).get a) =
          if a = ip then (if n = 0 then none else some n) else x.admission.active.get a := fun a => by
        split
        · rename_i hz
          rw [IndexMap.get_shiftRemove]
        · rw [IndexMap.get_insert]
      refine ⟨_, rfl, hlen, fun a => ?_, fun a => ?_, Nat.le_trans (Nat.sub_le _ _) hconn, fun a => ?_, h.attempts⟩
      · show (IndexMap.get (if n = 0 then _ else _) a).getD 0 = _
        rw [hget, hcount]
        by_cases ha : a = ip
        · subst ha
          rw [if_pos rfl, if_pos rfl, hn]
          split
          · rename_i hz; exact hz.symm
          · rfl
        · rw [if_neg ha, if_neg ha]
          exact h.active a
      · show IndexMap.get (if n = 0 then _ else _) a ≠ some 0
        rw [hget]
        by_cases ha : a = ip
        · rw [if_pos ha]
          split
          · exact fun he => by cases he
          · rename_i hz; exact fun he => hz (Option.some.inj he)
        · rw [if_neg ha]
          exact h.nonzero a
      · show (IndexMap.get (if n = 0 then _ else _) a).getD 0 ≤ _
        rw [hget]
        by_cases ha : a = ip
        · have hper := h.perIp ip
          rw [hg] at hper
          change n + 1 ≤ _ at hper
          rw [if_pos ha]
          split
          · exact Nat.zero_le _
          · exact Nat.le_of_succ_le hper
        · rw [if_neg ha]
          exact h.perIp a

theorem Exact.start (lim : Limits) : Exact lim .start :=
  ⟨rfl, fun _ => rfl, (fun _ => nofun), Nat.zero_le _, fun _ => Nat.zero_le _, Nat.zero_le _⟩

theorem step_acquire {y : System} {time : Nat} {ip : String} {ok : Bool}
    (hs : x.step lim (.acquire time ip) = some (y, ok)) : x.clock ≤ time ∧
      Admission.acquire lim x.admission time ip = (y.admission, ok) ∧
      y = ⟨y.admission, if ok then ip :: x.live else x.live, time⟩ := by
  rw [System.step] at hs
  generalize Admission.acquire lim x.admission time ip = res at hs ⊢
  obtain ⟨s, ok'⟩ := res
  split at hs
  · rename_i ht
    cases hs
    exact ⟨ht, rfl, rfl⟩
  · cases hs

theorem acquire_step {s : Admission} {time : Nat} {ip : String} {ok : Bool} (ht : x.clock ≤ time)
    (ha : Admission.acquire lim x.admission time ip = (s, ok)) :
    x.step lim (.acquire time ip) = some (⟨s, if ok then ip :: x.live else x.live, time⟩, ok) := by
  rw [System.step, if_pos ht, ha]

theorem step_drop {y : System} {ip : String} {ok : Bool} (hs : x.step lim (.drop ip) = some (y, ok)) :
    ip ∈ x.live ∧ x.admission.drop ip = some y.admission ∧ y = ⟨y.admission, x.live.erase ip, x.clock⟩ ∧ ok = false := by
  rw [System.step] at hs
  split at hs
  · rename_i hip
    obtain ⟨s, hd, hs⟩ := Option.map_eq_some_iff.1 hs
    cases hs
    exact ⟨hip, hd, rfl, rfl⟩
  · cases hs

theorem Exact.step (h : Exact lim x) {y : System} {e : Event} {ok : Bool} (hs : x.step lim e = some (y, ok)) :
    Exact lim y := by
  cases e with
  | acquire time ip =>
    obtain ⟨-, ha, hy⟩ := step_acquire hs
    rw [hy]
    exact h.acquire ha
  | drop ip =>
    obtain ⟨hip, hd, hy, -⟩ := step_drop hs
    obtain ⟨s, hd', he⟩ := h.drop hip
    rw [hd] at hd'
    cases hd'
    rw [hy]
    exact he

theorem Runs.exact {l : List (Event × Bool)} {y : System} (hr : Runs lim x l y) (h : Exact lim x) : Exact lim y := by
  induction hr with
  | nil => exact h
  | cons hs _ ih => exact ih (h.step hs)

/-! Attempts of one address within a minute. -/

/-- The attempts counted under the address's entry. -/
def used (s : Admission) (ip : String) : Nat := ((s.attempts.get ip).map Prod.snd).getD 0

/-- The event admits an attempt of this address before this time. -/
def admits (ip : String) (bound : Nat) : Event × Bool → Bool
  | (.acquire time a, ok) => ok && decide (a = ip) && decide (time < bound)
  | (.drop _, _) => false

theorem step_clock {y : System} {e : Event} {ok : Bool} (hs : x.step lim e = some (y, ok)) :
    x.clock ≤ y.clock ∧ ∀ time ip, e = .acquire time ip → y.clock = time := by
  cases e with
  | acquire time ip =>
    obtain ⟨ht, -, hy⟩ := step_acquire hs
    rw [hy]
    exact ⟨ht, fun _ _ he => by cases he; rfl⟩
  | drop ip =>
    obtain ⟨-, -, hy, -⟩ := step_drop hs
    rw [hy]
    exact ⟨Nat.le_refl _, (fun _ _ he => nomatch he)⟩

/-- Nothing is admitted in the past. -/
theorem admits_late {l : List (Event × Bool)} {y : System} (hr : Runs lim x l y) {ip : String} {bound : Nat}
    (hb : bound ≤ x.clock) : l.countP (admits ip bound) = 0 := by
  induction hr with
  | nil => rfl
  | @cons x y z e ok l hs hr ih =>
    obtain ⟨hle, htime⟩ := step_clock hs
    rw [List.countP_cons, ih (Nat.le_trans hb hle), if_neg]
    cases e with
    | acquire time a =>
      have := htime time a rfl
      simp only [admits, Bool.and_eq_true, decide_eq_true_eq, not_and]
      omega
    | drop a => exact Bool.false_ne_true

theorem purge_get {s : Admission} {time : Nat} {ip : String}
    (he : ∀ e, s.attempts.get ip = some e → time - e.1 < 60000) :
    (s.purge time).attempts.get ip = s.attempts.get ip := by
  show (s.attempts.retain _).get ip = _
  rw [IndexMap.get_retain]
  cases hg : s.attempts.get ip with
  | none => rfl
  | some e => exact Option.filter_some_pos (decide_eq_true (he e hg))

theorem drop_attempts {s t : Admission} {ip : String} (h : s.drop ip = some t) : t.attempts = s.attempts := by
  unfold Admission.drop at h
  repeat' split at h
  all_goals cases h
  all_goals rfl

theorem Acquires.other {s t : Admission} {time : Nat} {a ip : String} {ok : Bool} (h : Acquires lim s time a (t, ok))
    (hne : ip ≠ a) : t.attempts.get ip = (s.purge time).attempts.get ip := by
  cases h with
  | full => rfl
  | refused => exact IndexMap.get_insert_ne _ _ hne
  | admitted => exact IndexMap.get_insert_ne _ _ hne

/-- What an acquire makes of its address's entry that the purge kept: nothing, when it is refused without one; else one
more attempt. -/
theorem Acquires.entry {s t : Admission} {time : Nat} {ip : String} {ok : Bool} (h : Acquires lim s time ip (t, ok))
    (hkept : (s.purge time).attempts.get ip = s.attempts.get ip) :
    (ok = false ∧ t.attempts.get ip = s.attempts.get ip) ∨
      ∃ n start, t.attempts.get ip = some (start, n) ∧ n = min (s.used ip + 1) usizeMax ∧
        (start = time ∨ ∃ e, s.attempts.get ip = some e ∧ start = e.1) ∧ (ok = true → n ≤ lim.maxConnectionsPerMinute) := by
  have hcount : ((s.purge time).count time ip).2 = min (s.used ip + 1) usizeMax := by
    show min ((((s.purge time).attempts.get ip).getD (time, 0)).2 + 1) usizeMax = _
    rw [hkept]
    unfold used
    cases s.attempts.get ip <;> rfl
  have hentry : ((s.purge time).count time ip).1.attempts.get ip =
      some (((s.attempts.get ip).getD (time, 0)).1, ((s.purge time).count time ip).2) := by
    show ((s.purge time).attempts.insert ip _).get ip = _
    rw [IndexMap.get_insert_self, ← hkept]
    rfl
  have hstart : ((s.attempts.get ip).getD (time, 0)).1 = time ∨
      ∃ e, s.attempts.get ip = some e ∧ ((s.attempts.get ip).getD (time, 0)).1 = e.1 := by
    cases hg : s.attempts.get ip with
    | none => exact .inl rfl
    | some e => exact .inr ⟨e, rfl, rfl⟩
  cases h with
  | full => exact .inl ⟨rfl, hkept⟩
  | refused => exact .inr ⟨_, _, hentry, hcount, hstart, (fun h => nomatch h)⟩
  | admitted hroom hrate => exact .inr ⟨_, _, hentry, hcount, hstart, fun _ => hrate⟩

/-- **While an address's entry is from `start` on, no more of its attempts are admitted in the minute after `start` than
the entry leaves.** -/
theorem admits_le {l : List (Event × Bool)} {y : System} (hr : Runs lim x l y) {ip : String} {start : Nat}
    (hclock : start ≤ x.clock) (he : ∀ e, x.admission.attempts.get ip = some e → start ≤ e.1) :
    l.countP (admits ip (start + 60000)) ≤ lim.maxConnectionsPerMinute - x.admission.used ip := by
  induction hr with
  | nil => exact Nat.zero_le _
  | @cons x y z e ok l hs hr ih =>
    rw [List.countP_cons]
    cases e with
    | drop a =>
      obtain ⟨-, hd, hy, -⟩ := step_drop hs
      have hsame := drop_attempts hd
      have hle := ih (by rw [hy]; exact hclock) (fun e hg => he e (hsame ▸ hg))
      rw [show used y.admission ip = x.admission.used ip by unfold used; rw [hsame]] at hle
      exact hle
    | acquire time a =>
      obtain ⟨ht, hacq, hy⟩ := step_acquire hs
      have hy' : y.clock = time := by rw [hy]
      by_cases hlate : start + 60000 ≤ time
      · -- from here on the minute is over
        rw [admits_late hr (by omega), if_neg]
        · exact Nat.zero_le _
        · simp only [admits, Bool.and_eq_true, decide_eq_true_eq, not_and]
          omega
      have hkept : (x.admission.purge time).attempts.get ip = x.admission.attempts.get ip :=
        purge_get (fun e hg => by have := he e hg; omega)
      have hc := acquire_cases lim x.admission time a
      rw [hacq] at hc
      by_cases ha : a = ip
      · subst ha
        rcases hc.entry hkept with ⟨hok, hsame⟩ | ⟨n, start', hget, hn, hstart, hadm⟩
        · have hle := ih (by omega) (fun e hg => he e (hsame ▸ hg))
          rw [show used y.admission a = x.admission.used a by unfold used; rw [hsame]] at hle
          rw [hok]
          exact hle
        · have hle := ih (by omega) (fun e hg => by
            rw [hget] at hg
            cases hg
            rcases hstart with rfl | ⟨e, he', rfl⟩
            · exact Nat.le_trans hclock ht
            · exact he e he')
          rw [show used y.admission a = n by unfold used; rw [hget]; rfl] at hle
          have hmax : lim.maxConnectionsPerMinute < usizeMax := Nat.lt_of_le_of_lt lim.bounded (by decide)
          generalize usizeMax = m at hn hmax
          cases ok with
          | false =>
            rw [if_neg (show ¬ admits a _ (.acquire time a, false) = true from Bool.false_ne_true)]
            omega
          | true =>
            have := hadm rfl
            split <;> omega
      · -- another address leaves the entry alone
        have hother := (hc.other (Ne.symm ha)).trans hkept
        have hle := ih (by omega) (fun e hg => he e (hother ▸ hg))
        rw [show used y.admission ip = x.admission.used ip by unfold used; rw [hother]] at hle
        rw [if_neg (by simp [admits, ha])]
        exact hle

end

/-- The total is the sum of the counts of all addresses. -/
theorem sum_counts {m : IndexMap String Nat} {l : List String} (h : ∀ a, (m.get a).getD 0 = l.count a)
    (hz : ∀ a, m.get a ≠ some 0) : m.values.sum = l.length := by
  have hvalues : m.values = m.keys.map (fun a => l.count a) := by
    unfold IndexMap.values IndexMap.keys
    rw [List.map_map]
    refine List.map_congr_left (fun e he => ?_)
    have hget := IndexMap.mem_entries.1 (show (e.1, e.2) ∈ m.entries from he)
    have := h e.1
    rw [hget] at this
    exact this
  have hkeys : m.keys.toFinset = l.toFinset := Finset.ext (fun a => by
    rw [List.mem_toFinset, List.mem_toFinset, IndexMap.mem_keys, ← List.count_pos_iff, ← h a]
    constructor
    · rintro ⟨v, hv⟩
      rw [hv]
      exact Nat.pos_of_ne_zero (fun he => hz a (he ▸ hv))
    · intro hpos
      cases hg : m.get a with
      | none => rw [hg] at hpos; exact absurd hpos (Nat.lt_irrefl 0)
      | some v => exact ⟨v, rfl⟩)
  have hnodup : m.keys.Nodup := m.nodup
  rw [hvalues, ← List.sum_toFinset _ hnodup, hkeys, List.sum_toFinset_count_eq_length]

/-- **Admission accounting is exact.**  After any acquires and drops the total is the number of live permits and the sum
of the counts, each count is its address's live permits and none is stored as zero, all within the limits; live permits
drop without underflow, a refused acquire changes no count, an admitted one has an entry, and from an attempt that finds
no entry no more of the address's attempts than allowed are admitted within the minute. -/
theorem admission_is_exact {lim : Limits} {l : List (Event × Bool)} {x : System} (h : Runs lim .start l x) :
    (x.admission.total = x.live.length ∧ x.admission.total = x.admission.active.values.sum ∧
      (∀ ip, (x.admission.active.get ip).getD 0 = x.live.count ip) ∧ ∀ ip, x.admission.active.get ip ≠ some 0) ∧
    (x.admission.total ≤ lim.maxConnections ∧
      (∀ ip n, x.admission.active.get ip = some n → n ≤ lim.maxConnectionsPerIp) ∧
      x.admission.attempts.size ≤ 4 * lim.maxConnections) ∧
    (∀ ip ∈ x.live, (x.admission.drop ip).isSome) ∧
    (∀ time ip t, acquire lim x.admission time ip = (t, false) →
      t.total = x.admission.total ∧ t.active = x.admission.active) ∧
    (∀ time ip t, acquire lim x.admission time ip = (t, true) → t.attempts.contains ip = true) ∧
    ∀ time ip ok rest y, (x.admission.purge time).attempts.get ip = none →
      Runs lim x ((.acquire time ip, ok) :: rest) y →
      ((.acquire time ip, ok) :: rest).countP (admits ip (time + 60000)) ≤ lim.maxConnectionsPerMinute := by
  have he := h.exact (.start lim)
  refine ⟨⟨he.total, ?_, he.active, he.nonzero⟩, ⟨he.connections, fun ip n hn => ?_, he.attempts⟩, fun ip hip => ?_,
    fun time ip t => acquire_refused, fun time ip t => acquire_admitted, fun time ip ok rest y hnew hr => ?_⟩
  · rw [he.total, sum_counts he.active he.nonzero]
  · have := he.perIp ip
    rw [hn] at this
    exact this
  · obtain ⟨s, hs, -⟩ := he.drop hip
    rw [hs]
    rfl
  · cases hr with
    | @cons _ z _ _ _ _ hs hr =>
      -- the attempt finds the table as a purge leaves it
      obtain ⟨-, hacq, hz⟩ := step_acquire hs
      have hs' : (⟨x.admission.purge time, x.live, time⟩ : System).step lim (.acquire time ip) = some (z, ok) := by
        rw [hz]
        exact acquire_step (Nat.le_refl time) ((acquire_purge ..).trans hacq)
      refine Nat.le_trans (admits_le (.cons hs' hr) (Nat.le_refl time) (fun e he => ?_)) (Nat.sub_le _ _)
      rw [hnew] at he
      cases he

def limits : Limits := ⟨2, 1, 60, by decide⟩

theorem admission_is_exact_one : ∃ x,
    Runs limits .start [(.acquire 5 "10.0.0.1", true), (.acquire 6 "10.0.0.1", false), (.drop "10.0.0.1", false),
      (.acquire 7 "10.0.0.1", true)] x ∧ x.admission.total = x.live.length ∧ x.admission.total ≤ 2 := by
  refine ⟨_, .cons rfl (.cons rfl (.cons rfl (.cons rfl (.nil _)))), ?_⟩
  have h := admission_is_exact (.cons rfl (.cons rfl (.cons rfl (.cons rfl (.nil _)))) :
    Runs limits .start [(.acquire 5 "10.0.0.1", true), (.acquire 6 "10.0.0.1", false), (.drop "10.0.0.1", false),
      (.acquire 7 "10.0.0.1", true)] _)
  exact ⟨h.1.1, h.2.1.1⟩

end Admission
end Relay
