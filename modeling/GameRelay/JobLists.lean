import GameRelay.Trace
import GameRelay.Deliver
/-!
# JobLists — a room's queued notices over commits and deliveries

A commit replaces the scheduled job and keeps the immediate ones; a pass leaves receipts and retires jobs, whatever
snapshot it works from.  `JobRun` is a room's list along any such steps.  A commit takes over a queued job of the same
event and time with its flags; where an immediate notice takes over a scheduled job (`Reclaims`), it is queued as one.
-/
namespace Relay

open Value (ofNat)
open Store

/-- The job is the scheduled one. -/
def isScheduled (j : Value) : Bool := decide (j.idx "scheduled" = .bool true)

def undelivered (j : Value) : Bool := decide (j.idx "retryAt" ≠ delivered)

/-- A step on a room's job list: a commit, an entry in a `done` list, or the end of a job's pass. -/
inductive JobOp where
  | commit (events : IndexSet String) (scheduled immediate : Value)
  | receipt (job : Value) (key : String)
  | retire (job : Value) (failed : Bool) (now : Nat)

def JobOp.run (jobs : List Value) : JobOp → List Value
  | .commit events scheduled immediate => commitJobs events jobs scheduled immediate
  | .receipt job key => modifyFirst job (receipted key) jobs
  | .retire job failed now => retiredJobs job failed now jobs

/-- A run of steps on a list that begins empty, whose commits bring validated notices. -/
structure JobRun (js : Nat → List Value) (ops : Nat → JobOp) (n : Nat) : Prop where
  start : js 0 = []
  steps : ∀ i, i < n → js (i + 1) = (ops i).run (js i)
  notices : ∀ i, i < n → ∀ events s m, ops i = .commit events s m → Protocol.notice s = true ∧ Protocol.notice m = true

/-- The list a commit offers its immediate notice to. -/
def offered (events : IndexSet String) (previous : List Value) (scheduled : Value) : List Value :=
  addNotice events previous (previous.filter retained) scheduled true

/-- **The commit's immediate notice takes over a scheduled job**: one of its event and time is queued, and it is not
passed over. -/
def Reclaims (events : IndexSet String) (previous : List Value) (scheduled immediate : Value) : Prop :=
  noticeSkipped events (offered events previous scheduled) immediate = false ∧
    ∃ j ∈ previous, isScheduled j = true ∧ sameNotice j immediate = true

instance (events : IndexSet String) (previous : List Value) (s m : Value) : Decidable (Reclaims events previous s m) :=
  inferInstanceAs (Decidable (_ ∧ _))

/-- The lists that steps make of the empty one. -/
def jobsAfter (ops : List JobOp) : Nat → List Value
  | 0 => []
  | i + 1 => match ops[i]? with
    | some op => op.run (jobsAfter ops i)
    | none => jobsAfter ops i

theorem sameNotice_iff {a b : Value} :
    sameNotice a b = true ↔ a.idx "eventId" = b.idx "eventId" ∧ a.idx "at" = b.idx "at" := by
  unfold sameNotice
  rw [Bool.and_eq_true, decide_eq_true_iff, decide_eq_true_iff]

/-! One job. -/

theorem notice_isObject {n : Value} (h : Protocol.notice n = true) (hn : n.isNull = false) : n.isObject = true := by
  unfold Protocol.notice at h
  rw [hn, Bool.false_or] at h
  simp only [Bool.and_eq_true] at h
  exact h.1.1.1.1.1.1

section

variable {n : Value} (hn : n.isObject = true) (flag : Bool)

include hn

theorem newJob_idx {k : String} (h : k ≠ "done" ∧ k ≠ "retryAt" ∧ k ≠ "scheduled") :
    (newJob n flag).idx k = n.idx k := by
  unfold newJob
  rw [Value.idx_set (Value.isObject_set (Value.isObject_set hn _ _) _ _), if_neg h.2.2,
    Value.idx_set (Value.isObject_set hn _ _), if_neg h.2.1, Value.idx_set hn, if_neg h.1]

theorem newJob_scheduled : (newJob n flag).idx "scheduled" = .bool flag := by
  unfold newJob
  rw [Value.idx_set (Value.isObject_set (Value.isObject_set hn _ _) _ _), if_pos rfl]

theorem newJob_same : sameNotice (newJob n flag) n = true :=
  sameNotice_iff.2 ⟨newJob_idx hn flag (by decide), newJob_idx hn flag (by decide)⟩

end

theorem receipted_idx (key : String) (j : Value) {x : String} (h : x ≠ "done") : (receipted key j).idx x = j.idx x := by
  unfold receipted
  split <;> exact Value.idx_set_ne h

/-! Lists of jobs. -/

theorem map_modifyFirst {α : Type} {g : Value → α} {f : Value → Value} (hf : ∀ j, g (f j) = g j) (job : Value)
    (jobs : List Value) : (modifyFirst job f jobs).map g = jobs.map g := by
  induction jobs with
  | nil => rfl
  | cons j js ih =>
    unfold modifyFirst
    split
    · rw [List.map_cons, List.map_cons, hf]
    · rw [List.map_cons, List.map_cons, ih]

theorem mem_modifyFirst {job : Value} {f : Value → Value} {j : Value} : ∀ {jobs : List Value},
    j ∈ modifyFirst job f jobs → ∃ j₀ ∈ jobs, j = j₀ ∨ j = f j₀
  | [], h => absurd h List.not_mem_nil
  | j' :: js, h => by
    unfold modifyFirst at h
    split at h
    · rcases List.mem_cons.1 h with rfl | h
      · exact ⟨j', List.mem_cons_self, .inr rfl⟩
      · exact ⟨j, List.mem_cons_of_mem _ h, .inl rfl⟩
    · rcases List.mem_cons.1 h with rfl | h
      · exact ⟨j, List.mem_cons_self, .inl rfl⟩
      · obtain ⟨j₀, hj₀, he⟩ := mem_modifyFirst h
        exact ⟨j₀, List.mem_cons_of_mem _ hj₀, he⟩

theorem removeFirst_sublist (job : Value) (jobs : List Value) : (removeFirst job jobs).Sublist jobs := by
  induction jobs with
  | nil => exact .slnil
  | cons j js ih =>
    unfold removeFirst
    split
    · exact List.sublist_cons_self j js
    · exact ih.cons_cons j

/-- The event identifiers of the list are distinct. -/
def Distinct (jobs : List Value) : Prop := (jobs.map (fun j => j.idx "eventId")).Nodup

theorem Distinct.eq {jobs : List Value} (h : Distinct jobs) {a b : Value} (ha : a ∈ jobs) (hb : b ∈ jobs)
    (he : a.idx "eventId" = b.idx "eventId") : a = b := List.inj_on_of_nodup_map h ha hb he

section

variable {events : IndexSet String} {previous jobs : List Value} {n : Value} {flag : Bool}

theorem skipped_eq_false (h : noticeSkipped events jobs n = false) : n.isNull = false ∧
    events.contains (((n.idx "eventId").asStr).getD "") = false ∧ ∀ j ∈ jobs, j.idx "eventId" ≠ n.idx "eventId" := by
  unfold noticeSkipped at h
  rw [Bool.or_eq_false_iff, Bool.or_eq_false_iff] at h
  refine ⟨h.1.1, h.1.2, fun j hj he => ?_⟩
  have := List.any_eq_false.1 h.2 j hj
  exact this (decide_eq_true he)

/-- What a commit's notice comes to: it is passed over, or a job of its event and time is appended, new or taken over. -/
theorem addNotice_cases (events : IndexSet String) (previous jobs : List Value) (flag : Bool)
    (hn : Protocol.notice n = true) :
    (noticeSkipped events jobs n = true ∧ addNotice events previous jobs n flag = jobs) ∨
      (noticeSkipped events jobs n = false ∧ ∃ j, addNotice events previous jobs n flag = jobs ++ [j] ∧
        sameNotice j n = true ∧ (j ∈ previous ∨ (j = newJob n flag ∧ n.isObject = true))) := by
  unfold addNotice
  cases hs : noticeSkipped events jobs n with
  | true => exact .inl ⟨rfl, if_pos rfl⟩
  | false =>
    refine .inr ⟨rfl, _, if_neg Bool.false_ne_true, ?_⟩
    cases hf : previous.find? (fun j => sameNotice j n) with
    | none =>
      have hobj := notice_isObject hn (skipped_eq_false hs).1
      exact ⟨newJob_same hobj flag, .inr ⟨rfl, hobj⟩⟩
    | some j =>
      have hsame : sameNotice j n = true := by simpa using List.find?_some hf
      exact ⟨hsame, .inl (List.mem_of_find?_eq_some hf)⟩

theorem addNotice_mem {j : Value} (h : j ∈ jobs) : j ∈ addNotice events previous jobs n flag := by
  unfold addNotice
  split
  · exact h
  · exact List.mem_append_left _ h

theorem addNotice_distinct (hn : Protocol.notice n = true) (hd : Distinct jobs) :
    Distinct (addNotice events previous jobs n flag) := by
  rcases addNotice_cases events previous jobs flag hn with
    ⟨-, he⟩ | ⟨hs, j, he, hj, -⟩
  · rw [he]
    exact hd
  · rw [he]
    unfold Distinct
    rw [List.map_append, List.nodup_append]
    refine ⟨hd, List.nodup_singleton _, fun a ha b hb => ?_⟩
    obtain ⟨x, hx, rfl⟩ := List.mem_map.1 ha
    obtain rfl := List.mem_singleton.1 hb
    show x.idx "eventId" ≠ j.idx "eventId"
    rw [(sameNotice_iff.1 hj).1]
    exact (skipped_eq_false hs).2.2 x hx

theorem retained_distinct (hd : Distinct previous) : Distinct (previous.filter retained) :=
  hd.sublist (List.filter_sublist.map _)

theorem retained_iff {j : Value} : retained j = true ↔ isScheduled j = false ∧ undelivered j = true := by
  unfold retained isScheduled undelivered
  rw [Bool.and_eq_true, decide_eq_true_iff, decide_eq_false_iff_not]

end

/-! What a commit does. -/

section

variable {events : IndexSet String} {previous : List Value} {s m : Value} (hs : Protocol.notice s = true)
  (hm : Protocol.notice m = true)

/-- **A commit keeps every retained job as it is.** -/
theorem commitJobs_keeps {j : Value} (h : j ∈ previous) (hr : retained j = true) :
    j ∈ commitJobs events previous s m :=
  addNotice_mem (addNotice_mem (List.mem_filter.2 ⟨h, hr⟩))

include hs in
theorem offered_distinct (hd : Distinct previous) : Distinct (offered events previous s) :=
  addNotice_distinct hs (retained_distinct hd)

include hs hm in
theorem commitJobs_distinct (hd : Distinct previous) : Distinct (commitJobs events previous s m) :=
  addNotice_distinct hm (offered_distinct hs hd)

include hs in
/-- A scheduled job a commit offers its immediate notice to is its scheduled notice. -/
theorem offered_scheduled {j : Value} (h : j ∈ offered events previous s) (hj : isScheduled j = true) :
    sameNotice j s = true := by
  have hkept : j ∈ previous.filter retained → False := fun h => by
    have := (retained_iff.1 (List.mem_filter.1 h).2).1
    rw [hj] at this
    cases this
  unfold offered at h
  rcases addNotice_cases events previous (previous.filter retained) true hs
    with ⟨-, he⟩ | ⟨-, x, he, hx, -⟩
  · rw [he] at h
    exact (hkept h).elim
  · rw [he] at h
    rcases List.mem_append.1 h with h | h
    · exact (hkept h).elim
    · obtain rfl := List.mem_singleton.1 h
      exact hx

include hm in
/-- The job an immediate notice comes to, where it reclaims none: not a scheduled one. -/
theorem commitJobs_immediate (hr : ¬ Reclaims events previous s m)
    (hskip : noticeSkipped events (offered events previous s) m = false) : ∃ j,
      commitJobs events previous s m = offered events previous s ++ [j] ∧ sameNotice j m = true ∧ isScheduled j = false := by
  rcases addNotice_cases events previous (offered events previous s) false hm
    with ⟨hs', -⟩ | ⟨-, j, he, hj, hfrom⟩
  · rw [hskip] at hs'
    cases hs'
  · refine ⟨j, he, hj, ?_⟩
    rcases hfrom with hprev | ⟨rfl, hobj⟩
    · cases hsch : isScheduled j with
      | false => rfl
      | true => exact absurd ⟨hskip, j, hprev, hsch, hj⟩ hr
    · unfold isScheduled
      rw [newJob_scheduled hobj]
      exact decide_eq_false (fun he => by cases he)

include hs hm in
/-- **A scheduled job after a commit is its scheduled notice**, unless its immediate notice reclaimed one. -/
theorem commitJobs_scheduled (hr : ¬ Reclaims events previous s m) {j : Value}
    (h : j ∈ commitJobs events previous s m) (hj : isScheduled j = true) : sameNotice j s = true := by
  cases hskip : noticeSkipped events (offered events previous s) m with
  | true =>
    have he : commitJobs events previous s m = offered events previous s := if_pos hskip
    exact offered_scheduled hs (he ▸ h) hj
  | false =>
    obtain ⟨x, he, -, hx⟩ := commitJobs_immediate hm hr hskip
    rw [he] at h
    rcases List.mem_append.1 h with h | h
    · exact offered_scheduled hs h hj
    · obtain rfl := List.mem_singleton.1 h
      rw [hj] at hx
      cases hx

include hs hm in
/-- **Where it does reclaim one, the immediate notice is queued as a scheduled job.** -/
theorem commitJobs_reclaimed (hd : Distinct previous) (hr : Reclaims events previous s m) :
    ¬ ∃ j ∈ commitJobs events previous s m, sameNotice j m = true ∧ isScheduled j = false := by
  rintro ⟨j, hj, hjm, hjs⟩
  obtain ⟨hskip, x, hx, hxs, hxm⟩ := hr
  have hfind : previous.find? (fun j => sameNotice j m) = some x := by
    cases hf : previous.find? (fun j => sameNotice j m) with
    | none => exact absurd hxm (List.find?_eq_none.1 hf x hx)
    | some y =>
      have hy : sameNotice y m = true := by simpa using List.find?_some hf
      exact congrArg some (hd.eq (List.mem_of_find?_eq_some hf) hx
        ((sameNotice_iff.1 hy).1.trans (sameNotice_iff.1 hxm).1.symm))
  have he : commitJobs events previous s m = offered events previous s ++ [x] := by
    show addNotice events previous (offered events previous s) m false = _
    unfold addNotice
    rw [hskip, hfind]
    rfl
  have hxin : x ∈ commitJobs events previous s m := by
    rw [he]
    exact List.mem_append_right _ (List.mem_singleton_self x)
  have heq := (commitJobs_distinct hs hm hd).eq hj hxin ((sameNotice_iff.1 hjm).1.trans (sameNotice_iff.1 hxm).1.symm)
  rw [heq, hxs] at hjs
  cases hjs

end

/-! What any step does. -/

/-- What identifies a job and its flag are its own, whatever a pass does to it. -/
theorem retired_idx (failed : Bool) (now : Nat) (j : Value) {x : String} (h : x ≠ "retryAt") :
    (j.set "retryAt" (if failed then ofNat (now + 30000) else delivered)).idx x = j.idx x := Value.idx_set_ne h

theorem Distinct.run {jobs : List Value} (hd : Distinct jobs) (op : JobOp)
    (hn : ∀ events s m, op = .commit events s m → Protocol.notice s = true ∧ Protocol.notice m = true) :
    Distinct (op.run jobs) := by
  cases op with
  | commit events s m =>
    obtain ⟨hs, hm⟩ := hn events s m rfl
    exact commitJobs_distinct hs hm hd
  | receipt job key =>
    show ((modifyFirst job (receipted key) jobs).map _).Nodup
    rw [map_modifyFirst (fun j => receipted_idx key j (by decide))]
    exact hd
  | retire job failed now =>
    show ((retiredJobs job failed now jobs).map _).Nodup
    unfold retiredJobs
    split
    · exact hd.sublist ((removeFirst_sublist job jobs).map _)
    · rw [map_modifyFirst (fun j => retired_idx failed now j (by decide))]
      exact hd

/-- A job after a pass's step was there before, under the same event, time and flag. -/
theorem JobOp.origin {jobs : List Value} {op : JobOp} (hop : ∀ events s m, op ≠ .commit events s m) {j : Value}
    (h : j ∈ op.run jobs) : ∃ j₀ ∈ jobs, isScheduled j = isScheduled j₀ ∧ ∀ n, sameNotice j n = sameNotice j₀ n := by
  have same : ∀ {j₀ : Value}, j.idx "scheduled" = j₀.idx "scheduled" → j.idx "eventId" = j₀.idx "eventId" →
      j.idx "at" = j₀.idx "at" → isScheduled j = isScheduled j₀ ∧ ∀ n, sameNotice j n = sameNotice j₀ n :=
    fun h₁ h₂ h₃ => ⟨by unfold isScheduled; rw [h₁], fun n => by unfold sameNotice; rw [h₂, h₃]⟩
  cases op with
  | commit events s m => exact absurd rfl (hop events s m)
  | receipt job key =>
    obtain ⟨j₀, hj₀, rfl | rfl⟩ := mem_modifyFirst h
    · exact ⟨j, hj₀, same rfl rfl rfl⟩
    · exact ⟨j₀, hj₀, same (receipted_idx key j₀ (by decide)) (receipted_idx key j₀ (by decide))
        (receipted_idx key j₀ (by decide))⟩
  | retire job failed now =>
    change j ∈ retiredJobs job failed now jobs at h
    unfold retiredJobs at h
    split at h
    · exact ⟨j, (removeFirst_sublist job jobs).subset h, same rfl rfl rfl⟩
    · obtain ⟨j₀, hj₀, rfl | rfl⟩ := mem_modifyFirst h
      · exact ⟨j, hj₀, same rfl rfl rfl⟩
      · exact ⟨j₀, hj₀, same (retired_idx failed now j₀ (by decide)) (retired_idx failed now j₀ (by decide))
          (retired_idx failed now j₀ (by decide))⟩

namespace JobRun

variable {js : Nat → List Value} {ops : Nat → JobOp} {n : Nat}

theorem distinct (h : JobRun js ops n) : ∀ {i : Nat}, i ≤ n → Distinct (js i)
  | 0, _ => by
    rw [h.start]
    exact List.nodup_nil
  | i + 1, hi => by
    rw [h.steps i hi]
    exact (h.distinct (Nat.le_of_lt hi)).run (ops i) (h.notices i hi)

section

variable (h : JobRun js ops n)
  (hr : ∀ i, i < n → ∀ events s m, ops i = .commit events s m → ¬ Reclaims events (js i) s m)

include h hr

/-- **While a job queued as an immediate notice stays queued and undelivered, it is not marked scheduled.** -/
theorem immediate_kept {i : Nat} {events : IndexSet String} {s m : Value} (hi : ops i = .commit events s m)
    (hskip : noticeSkipped events (offered events (js i) s) m = false) : ∀ {k : Nat}, i < k → k ≤ n →
    (∀ q, i < q → q ≤ k → ∃ j ∈ js q, sameNotice j m = true ∧ undelivered j = true) →
    ∀ j ∈ js k, sameNotice j m = true → isScheduled j = false
  | 0, hik, _, _ => absurd hik (Nat.not_lt_zero i)
  | k + 1, hik, hk, hq => fun j hj hjm => by
    have hstep := h.steps k hk
    rcases Nat.lt_or_ge i k with hlt | hge
    · have ih := immediate_kept hi hskip hlt (Nat.le_of_lt hk) (fun q h₁ h₂ => hq q h₁ (Nat.le_succ_of_le h₂))
      obtain ⟨j₀, hj₀, hj₀m, hj₀u⟩ := hq k hlt (Nat.le_succ k)
      rw [hstep] at hj
      by_cases hc : ∃ ev s' m', ops k = .commit ev s' m'
      · -- the commit keeps the job, so no other job of its event is queued after it
        obtain ⟨ev, s', m', hc⟩ := hc
        obtain ⟨hs', hm'⟩ := h.notices k hk ev s' m' hc
        have hkeep : j₀ ∈ (ops k).run (js k) := by
          rw [hc]
          exact commitJobs_keeps hj₀ (retained_iff.2 ⟨ih j₀ hj₀ hj₀m, hj₀u⟩)
        have hd := (h.distinct (Nat.le_of_lt hk)).run (ops k) (h.notices k hk)
        rw [hd.eq hj hkeep ((sameNotice_iff.1 hjm).1.trans (sameNotice_iff.1 hj₀m).1.symm)]
        exact ih j₀ hj₀ hj₀m
      · obtain ⟨j₁, hj₁, hsch, hsame⟩ := JobOp.origin (fun ev s' m' he => hc ⟨ev, s', m', he⟩) hj
        rw [hsch]
        exact ih j₁ hj₁ ((hsame m).symm.trans hjm)
    · obtain rfl : i = k := by omega
      obtain ⟨-, hm⟩ := h.notices i hk events s m hi
      obtain ⟨x, he, hxm, hxs⟩ := commitJobs_immediate hm (hr i hk events s m hi) hskip
      have hd := (h.distinct (Nat.le_of_lt hk)).run (ops i) (h.notices i hk)
      rw [hstep] at hj
      have hx : x ∈ (ops i).run (js i) := by
        rw [hi]
        show x ∈ commitJobs _ _ _ _
        rw [he]
        exact List.mem_append_right _ (List.mem_singleton_self x)
      rw [hd.eq hj hx ((sameNotice_iff.1 hjm).1.trans (sameNotice_iff.1 hxm).1.symm)]
      exact hxs

end

/-- **The notification replacement law.**  In a run in which no immediate notice takes over a scheduled job, at every
commit: (a) a job queued as an immediate notice by an earlier commit that has stayed queued and undelivered is kept as it
is; (b) at most one job is marked scheduled, and it is of this commit's scheduled notice; (c) the immediate notice, unless
passed over, is queued as a job that is not; (d) the event identifiers are distinct. -/
theorem replacement_law (h : JobRun js ops n)
    (hr : ∀ i, i < n → ∀ events s m, ops i = .commit events s m → ¬ Reclaims events (js i) s m) {k : Nat} (hk : k < n)
    {events : IndexSet String} {s m : Value} (hc : ops k = .commit events s m) :
    (∀ i, i < k → ∀ events' s' m', ops i = .commit events' s' m' →
      noticeSkipped events' (offered events' (js i) s') m' = false →
      (∀ q, i < q → q ≤ k → ∃ j ∈ js q, sameNotice j m' = true ∧ undelivered j = true) →
      ∃ j ∈ js k, sameNotice j m' = true ∧ undelivered j = true ∧ j ∈ js (k + 1)) ∧
    ((∀ j ∈ js (k + 1), isScheduled j = true → sameNotice j s = true) ∧ ((js (k + 1)).filter isScheduled).length ≤ 1) ∧
    (noticeSkipped events (offered events (js k) s) m = false →
      ∃ j ∈ js (k + 1), sameNotice j m = true ∧ isScheduled j = false) ∧
    ((js (k + 1)).map (fun j => j.idx "eventId")).Nodup := by
  have hnext : js (k + 1) = commitJobs events (js k) s m := by
    rw [h.steps k hk, hc]
    rfl
  have hd : Distinct (js (k + 1)) := h.distinct hk
  obtain ⟨hs, hm⟩ := h.notices k hk events s m hc
  have hsch : ∀ j ∈ js (k + 1), isScheduled j = true → sameNotice j s = true := fun j hj =>
    commitJobs_scheduled hs hm (hr k hk events s m hc) (hnext ▸ hj)
  refine ⟨fun i hi events' s' m' hi' hskip hq => ?_, ⟨hsch, ?_⟩, fun hskip => ?_, hd⟩
  · obtain ⟨j, hj, hjm, hju⟩ := hq k hi (Nat.le_refl k)
    refine ⟨j, hj, hjm, hju, ?_⟩
    rw [hnext]
    exact commitJobs_keeps hj (retained_iff.2 ⟨h.immediate_kept hr hi' hskip hi (Nat.le_of_lt hk) hq j hj hjm, hju⟩)
  · -- two scheduled jobs would share their event
    cases hf : (js (k + 1)).filter isScheduled with
    | nil => exact Nat.zero_le 1
    | cons a l =>
      cases l with
      | nil => exact Nat.le_refl 1
      | cons b l =>
        have hsub : (a :: b :: l).Sublist (js (k + 1)) := hf ▸ List.filter_sublist
        have ha := List.mem_filter.1 (hf ▸ List.mem_cons_self : a ∈ (js (k + 1)).filter isScheduled)
        have hb := List.mem_filter.1
          (hf ▸ List.mem_cons_of_mem _ List.mem_cons_self : b ∈ (js (k + 1)).filter isScheduled)
        have hnodup : ((a :: b :: l).map (fun j => j.idx "eventId")).Nodup := List.Nodup.sublist (hsub.map _) hd
        rw [List.map_cons, List.map_cons, List.nodup_cons] at hnodup
        refine absurd (List.mem_cons.2 (.inl ?_)) hnodup.1
        exact (sameNotice_iff.1 (hsch a ha.1 ha.2)).1.trans (sameNotice_iff.1 (hsch b hb.1 hb.2)).1.symm
  · obtain ⟨x, he, hxm, hxs⟩ := commitJobs_immediate hm (hr k hk events s m hc) hskip
    refine ⟨x, ?_, hxm, hxs⟩
    rw [hnext, he]
    exact List.mem_append_right _ (List.mem_singleton_self x)

end JobRun

/-! The steps of the delivery task. -/

def Store.jobsOf (st : Store) (room : String) : List Value := (st.jobs.get room).getD []

theorem forgetDevice_jobs (env : Env) (s : Server) (id device : String) (token : Value) :
    (s.forgetDevice env id device token).store.jobs = s.store.jobs := by
  unfold Server.forgetDevice
  split
  · rfl
  · split
    · dsimp only
      split <;> exact (saveAccount_files _ _ _).2.1
    · rfl

theorem receipt_jobs (s : Server) (room : String) (job : Value) (key x : String) :
    (s.receipt room job key).store.jobsOf x = s.store.jobsOf x ∨
      (s.receipt room job key).store.jobsOf x = (JobOp.receipt job key).run (s.store.jobsOf x) := by
  have hget : (s.receipt room job key).store.jobsOf x =
      ((s.store.jobs.modify room (modifyFirst job (receipted key))).get x).getD [] := rfl
  rw [hget, IndexMap.get_modify]
  split
  · rename_i hx
    subst hx
    refine .inr ?_
    unfold Store.jobsOf
    cases s.store.jobs.get x <;> rfl
  · exact .inl rfl

theorem setJobs_jobsOf (io : Nat → Bool) (st : Store) (id : String) (jobs : List Value) (x : String) :
    (setJobs io st id jobs).1.jobsOf x = st.jobsOf x ∨ (setJobs io st id jobs).1.jobsOf x = if x = id then jobs else
      st.jobsOf x := by
  have removed : jobs.isEmpty = true → ((st.jobs.shiftRemove id).get x).getD [] = if x = id then jobs else st.jobsOf x :=
    fun he => by
      rw [IndexMap.get_shiftRemove]
      split
      · exact (List.isEmpty_iff.1 he).symm
      · rfl
  have inserted : ((st.jobs.insert id jobs).get x).getD [] = if x = id then jobs else st.jobsOf x := by
    rw [IndexMap.get_insert]
    split <;> rfl
  unfold setJobs
  split
  · exact .inl rfl
  split
  · rename_i he
    split
    · split
      · exact .inr (removed he)
      · exact .inl rfl
    · exact .inr (removed he)
  · split
    · exact .inr inserted
    · exact .inl rfl

theorem retire_jobs (env : Env) (s : Server) (d : Delivery) (x : String) :
    (s.retire env d).store.jobsOf x = s.store.jobsOf x ∨
      (s.retire env d).store.jobsOf x = (JobOp.retire d.job d.failed env.now).run (s.store.jobsOf x) := by
  unfold Server.retire
  split
  · exact .inl rfl
  rename_i jobs hg
  have hjobs : s.store.jobsOf d.room = jobs := by
    unfold Store.jobsOf
    rw [hg]
    rfl
  have here : (if x = d.room then retiredJobs d.job d.failed env.now jobs else s.store.jobsOf x) = s.store.jobsOf x ∨
      (if x = d.room then retiredJobs d.job d.failed env.now jobs else s.store.jobsOf x) =
        (JobOp.retire d.job d.failed env.now).run (s.store.jobsOf x) := by
    by_cases hx : x = d.room
    · rw [if_pos hx, hx, hjobs]
      exact .inr rfl
    · rw [if_neg hx]
      exact .inl rfl
  split
  · dsimp only
    split
    · rcases setJobs_jobsOf env.io s.store d.room (retiredJobs d.job d.failed env.now jobs) x with h | h
      · exact .inl h
      · rw [h]
        exact here
    · split
      · rename_i hempty
        have hget : ((s.store.jobs.shiftRemove d.room).get x).getD [] =
            if x = d.room then retiredJobs d.job d.failed env.now jobs else s.store.jobsOf x := by
          rw [IndexMap.get_shiftRemove]
          split
          · exact (List.isEmpty_iff.1 hempty).symm
          · rfl
        show ((s.store.jobs.shiftRemove d.room).get x).getD [] = _ ∨ ((s.store.jobs.shiftRemove d.room).get x).getD [] = _
        rw [hget]
        exact here
      · have hget : ((s.store.jobs.insert d.room (retiredJobs d.job d.failed env.now jobs)).get x).getD [] =
            if x = d.room then retiredJobs d.job d.failed env.now jobs else s.store.jobsOf x := by
          rw [IndexMap.get_insert]
          split <;> rfl
        show ((s.store.jobs.insert d.room _).get x).getD [] = _ ∨ ((s.store.jobs.insert d.room _).get x).getD [] = _
        rw [hget]
        exact here
  · exact .inl rfl

/-- **A step of the delivery task is a receipt or the end of a pass on each job list**, or leaves it. -/
theorem PushTask.step_jobs (env : Env) (answer : Answer) (s : Server) (task : PushTask) (room : String) :
    (task.step env answer s).1.store.jobsOf room = s.store.jobsOf room ∨
      ∃ op : JobOp, (∀ events a b, op ≠ .commit events a b) ∧
        (task.step env answer s).1.store.jobsOf room = op.run (s.store.jobsOf room) := by
  cases task with
  | idle => exact .inl rfl
  | due jobs => cases jobs <;> exact .inl rfl
  | job d jobs =>
    cases ht : d.targets with
    | nil =>
      have he : PushTask.step env answer s (.job d jobs) = (s.retire env d, .due jobs) := by simp only [PushTask.step, ht]
      rw [he]
      rcases retire_jobs env s d room with h | h
      · exact .inl h
      · exact .inr ⟨.retire d.job d.failed env.now, (fun _ _ _ => nofun), h⟩
    | cons v vs =>
      refine .inl ?_
      simp only [PushTask.step, ht]
      split <;> rfl
  | target d t jobs =>
    refine .inl ?_
    cases ht : t.devices with
    | nil => simp only [PushTask.step, ht]
    | cons device devices =>
      simp only [PushTask.step, ht]
      repeat' split
      all_goals rfl
  | asked d t device jobs => cases answer <;> exact .inl rfl
  | answered d t device invalid jobs =>
    have hsame : ∀ s' : Server, s'.store.jobs = s.store.jobs → s'.store.jobsOf room = s.store.jobsOf room := fun s' h => by
      unfold Store.jobsOf
      rw [h]
    have key : ∀ s' : Server, s'.store.jobs = s.store.jobs →
        (s'.receipt d.room d.job (doneKey t.id device.1)).store.jobsOf room = s.store.jobsOf room ∨
          ∃ op : JobOp, (∀ events a b, op ≠ .commit events a b) ∧
            (s'.receipt d.room d.job (doneKey t.id device.1)).store.jobsOf room = op.run (s.store.jobsOf room) :=
      fun s' h => by
        rcases receipt_jobs s' d.room d.job (doneKey t.id device.1) room with h' | h'
        · exact .inl (h'.trans (hsame s' h))
        · rw [hsame s' h] at h'
          exact .inr ⟨.receipt d.job (doneKey t.id device.1), (fun _ _ _ => nofun), h'⟩
    cases invalid with
    | false => exact key s rfl
    | true => exact key _ (forgetDevice_jobs env s t.id device.1 _)

/-! What a new process takes from a file. -/

/-- A list of jobs that a new process takes from its file. -/
def Loadable (jobs : List Value) : Prop := ∀ j ∈ jobs, loadable j = true

theorem notice_set {v : Value} (hv : v.isObject = true) {k : String} {w : Value}
    (hk : "eventId" ≠ k ∧ "at" ≠ k ∧ "to" ≠ k ∧ "title" ≠ k ∧ "body" ≠ k ∧ "translations" ≠ k)
    (h : Protocol.notice v = true) : Protocol.notice (v.set k w) = true := by
  have hopt : Protocol.optional (v.set k w) "translations" Protocol.translations =
      Protocol.optional v "translations" Protocol.translations := by
    cases v with
    | obj fields =>
      unfold Protocol.optional
      rw [Value.get_set_obj, if_neg hk.2.2.2.2.2]
    | _ => cases hv
  have hnull : v.isNull = false := by cases v <;> first | rfl | cases hv
  have hnull' : (v.set k w).isNull = false := by cases v <;> first | rfl | cases hv
  unfold Protocol.notice at h ⊢
  rw [hnull, Bool.false_or, hv] at h
  rw [hnull', Bool.false_or, Value.isObject_set hv, hopt, Value.idx_set hv, if_neg hk.1, Value.idx_set hv, if_neg hk.2.1,
    Value.idx_set hv, if_neg hk.2.2.1, Value.idx_set hv, if_neg hk.2.2.2.1, Value.idx_set hv, if_neg hk.2.2.2.2.1]
  exact h

theorem loadable_iff {j : Value} : loadable j = true ↔ Protocol.notice j = true ∧
    (∃ a, j.idx "done" = .arr a ∧ ∀ v ∈ a, v.asStr.isSome = true) ∧ Protocol.integer (j.idx "retryAt") = true ∧
      (j.idx "scheduled").isBoolean = true := by
  unfold loadable
  rw [Bool.and_eq_true, Bool.and_eq_true, Bool.and_eq_true, Option.any_eq_true, and_assoc, and_assoc]
  refine and_congr_right (fun _ => and_congr_left (fun _ => ?_))
  constructor
  · rintro ⟨a, ha, hall⟩
    cases hd : j.idx "done" with
    | arr l =>
      rw [hd] at ha
      cases ha
      exact ⟨a, rfl, fun v hv => List.all_eq_true.1 hall v hv⟩
    | _ => rw [hd] at ha; cases ha
  · rintro ⟨a, ha, hall⟩
    exact ⟨a, by rw [ha]; rfl, List.all_eq_true.2 hall⟩

theorem loadable_isObject {j : Value} (h : loadable j = true) : j.isObject = true := by
  obtain ⟨-, ⟨a, ha, -⟩, -⟩ := loadable_iff.1 h
  cases j with
  | obj fields => rfl
  | _ => cases ha

theorem integer_ofNat {n : Nat} (h : n ≤ maxSafe) : Protocol.integer (ofNat n) = true := by
  have hr : round64 n = n := by
    unfold round64
    rw [if_pos]
    unfold maxSafe at h
    omega
  show decide (0 ≤ (round64 n : Int) ∧ (round64 n : Int) ≤ maxSafe) = true
  rw [hr]
  exact decide_eq_true ⟨Int.natCast_nonneg n, by exact_mod_cast h⟩

theorem loadable_newJob {n : Value} (hn : Protocol.notice n = true) (hobj : n.isObject = true) (flag : Bool) :
    loadable (newJob n flag) = true := by
  have o₁ := Value.isObject_set hobj "done" (.arr [])
  have o₂ := Value.isObject_set o₁ "retryAt" (ofNat 0)
  have hnote : Protocol.notice (newJob n flag) = true :=
    notice_set o₂ (by decide) (notice_set o₁ (by decide) (notice_set hobj (by decide) hn))
  refine loadable_iff.2 ⟨hnote, ⟨[], ?_, (fun _ h => nomatch h)⟩, ?_, ?_⟩
  · unfold newJob
    rw [Value.idx_set o₂, if_neg (by decide), Value.idx_set o₁, if_neg (by decide), Value.idx_set hobj, if_pos rfl]
  · have hz : (newJob n flag).idx "retryAt" = ofNat 0 := by
      unfold newJob
      rw [Value.idx_set o₂, if_neg (by decide), Value.idx_set o₁, if_pos rfl]
    rw [hz]
    exact integer_ofNat (Nat.zero_le _)
  · rw [newJob_scheduled hobj]
    rfl

theorem loadable_receipted {j : Value} (key : String) (h : loadable j = true) : loadable (receipted key j) = true := by
  have hobj := loadable_isObject h
  obtain ⟨hn, ⟨a, ha, hall⟩, hretry, hsch⟩ := loadable_iff.1 h
  have he : receipted key j = j.set "done" (.arr (a ++ [.str key])) := by
    unfold receipted
    rw [ha]
    rfl
  rw [he]
  refine loadable_iff.2 ⟨notice_set hobj (by decide) hn, ⟨a ++ [.str key], ?_, fun v hv => ?_⟩, ?_, ?_⟩
  · rw [Value.idx_set hobj, if_pos rfl]
  · rcases List.mem_append.1 hv with hv | hv
    · exact hall v hv
    · obtain rfl := List.mem_singleton.1 hv
      rfl
  · rw [Value.idx_set hobj, if_neg (by decide)]
    exact hretry
  · rw [Value.idx_set hobj, if_neg (by decide)]
    exact hsch

theorem loadable_retry {j : Value} {n : Nat} (hn : n ≤ maxSafe) (h : loadable j = true) :
    loadable (j.set "retryAt" (ofNat n)) = true := by
  have hobj := loadable_isObject h
  obtain ⟨hnote, ⟨a, ha, hall⟩, -, hsch⟩ := loadable_iff.1 h
  refine loadable_iff.2 ⟨notice_set hobj (by decide) hnote, ⟨a, ?_, hall⟩, ?_, ?_⟩
  · rw [Value.idx_set hobj, if_neg (by decide)]
    exact ha
  · rw [Value.idx_set hobj, if_pos rfl]
    exact integer_ofNat hn
  · rw [Value.idx_set hobj, if_neg (by decide)]
    exact hsch

theorem Loadable.addNotice {events : IndexSet String} {previous jobs : List Value} {n : Value} {flag : Bool}
    (hp : Loadable previous) (hj : Loadable jobs) (hn : Protocol.notice n = true) :
    Loadable (addNotice events previous jobs n flag) := by
  rcases addNotice_cases events previous jobs flag hn with ⟨-, he⟩ | ⟨-, j, he, -, hfrom⟩
  · rw [he]
    exact hj
  · rw [he]
    intro x hx
    rcases List.mem_append.1 hx with hx | hx
    · exact hj x hx
    · obtain rfl := List.mem_singleton.1 hx
      rcases hfrom with h | ⟨rfl, hobj⟩
      · exact hp x h
      · exact loadable_newJob hn hobj flag

theorem Loadable.run {jobs : List Value} (h : Loadable jobs) (op : JobOp)
    (hn : ∀ events s m, op = .commit events s m → Protocol.notice s = true ∧ Protocol.notice m = true)
    (hnow : ∀ job failed now, op = .retire job failed now → now + 30000 ≤ maxSafe) : Loadable (op.run jobs) := by
  cases op with
  | commit events s m =>
    obtain ⟨hs, hm⟩ := hn events s m rfl
    exact h.addNotice (h.addNotice (fun j hj => h j (List.mem_of_mem_filter hj)) hs) hm
  | receipt job key =>
    intro j hj
    obtain ⟨j₀, hj₀, rfl | rfl⟩ := mem_modifyFirst hj
    · exact h j hj₀
    · exact loadable_receipted key (h j₀ hj₀)
  | retire job failed now =>
    intro j hj
    change j ∈ retiredJobs job failed now jobs at hj
    unfold retiredJobs at hj
    split at hj
    · exact h j ((removeFirst_sublist job jobs).subset hj)
    · obtain ⟨j₀, hj₀, rfl | rfl⟩ := mem_modifyFirst hj
      · exact h j hj₀
      · cases failed with
        | true => exact loadable_retry (hnow job true now rfl) (h j₀ hj₀)
        | false => exact loadable_retry (Nat.le_refl _) (h j₀ hj₀)

namespace JobRun

variable {js : Nat → List Value} {ops : Nat → JobOp} {n : Nat}

theorem loadable (h : JobRun js ops n)
    (hnow : ∀ i, i < n → ∀ job failed now, ops i = .retire job failed now → now + 30000 ≤ maxSafe) : ∀ {i : Nat}, i ≤ n →
    Loadable (js i)
  | 0, _ => by
    rw [h.start]
    exact fun j hj => nomatch hj
  | i + 1, hi => by
    rw [h.steps i hi]
    exact (h.loadable hnow (Nat.le_of_lt hi)).run (ops i) (h.notices i hi) (hnow i hi)

/-- **Job lists survive a restart.**  The list of a room that any run of commits and deliveries leaves, once `set_jobs`
wrote it, is the one a new process loads under the room's identifier; an empty one has no file. -/
theorem job_lists_survive (h : JobRun js ops n)
    (hnow : ∀ i, i < n → ∀ job failed now, ops i = .retire job failed now → now + 30000 ≤ maxSafe) {io : Nat → Bool}
    {st st' : Store} {id : String} (hid : lowerText id = id) (hs : setJobs io st id (js n) = (st', true)) :
    st'.notifications.get id = (if js n = [] then none else some (js n)) ∧
      (loadJobs st'.notifications).get id = if js n = [] then none else some (js n) := by
  have hload := h.loadable hnow (Nat.le_refl n)
  generalize js n = jobs at hs hload ⊢
  have hfile : isUuid id = true ∧ st'.notifications.get id = if jobs = [] then none else some jobs := by
    unfold setJobs at hs
    rw [hid] at hs
    split at hs
    · cases hs
    rename_i hu
    refine ⟨by simpa using hu, ?_⟩
    split at hs
    · rename_i hempty
      rw [if_pos (List.isEmpty_iff.1 hempty)]
      split at hs
      · split at hs
        · cases hs
          exact (IndexMap.get_shiftRemove ..).trans (if_pos rfl)
        · cases hs
      · rename_i hcontains
        cases hs
        exact IndexMap.contains_eq_false.1 (by simpa using hcontains)
    · rename_i hempty
      rw [if_neg (fun he => hempty (List.isEmpty_iff.2 he))]
      split at hs
      · cases hs
        exact IndexMap.get_insert_self ..
      · cases hs
  refine ⟨hfile.2, ?_⟩
  unfold loadJobs
  rw [IndexMap.get_retain, hfile.2]
  split
  · rfl
  · exact Option.filter_some_pos (by rw [hfile.1, Bool.true_and]; exact List.all_eq_true.2 hload)

end JobRun

namespace Trace

def notice (event : String) : Value := .obj [("eventId", .str event), ("at", ofNat 0), ("to", .arr []),
  ("title", .str "Turn"), ("body", .str "Your turn")]

/-- A scheduled event becomes an immediate one, and nothing is scheduled afterwards. -/
def moved (i : Nat) : JobOp :=
  match i with
  | 0 => .commit .empty (notice "turn") .null
  | 1 => .commit .empty .null (notice "turn")
  | _ => .commit .empty .null .null

/-- One event is scheduled, another is immediate; then the schedule is cancelled. -/
def kept (i : Nat) : JobOp :=
  match i with
  | 0 => .commit .empty (notice "turn") (notice "start")
  | _ => .commit .empty .null .null

end Trace

namespace JobRun

/-- **An immediate notice that was scheduled before is queued as scheduled**, and the next commit drops it undelivered. -/
theorem moved_notice_is_dropped : ∃ js, JobRun js Trace.moved 3 ∧
    noticeSkipped .empty (offered .empty (js 1) .null) (Trace.notice "turn") = false ∧
    (∀ j ∈ js 2, isScheduled j = true ∧ undelivered j = true) ∧ js 2 ≠ [] ∧ js 3 = [] := by
  refine ⟨jobsAfter [Trace.moved 0, Trace.moved 1, Trace.moved 2], ⟨rfl, fun i hi => ?_, fun i hi => ?_⟩, ?_⟩
  · rcases i with _ | _ | _ | i
    · rfl
    · rfl
    · rfl
    · omega
  · rcases i with _ | _ | _ | i
    all_goals intro events s m he
    all_goals cases he
    all_goals decide +kernel
  · decide +kernel

theorem replacement_law_kept :
    ∃ js, JobRun js Trace.kept 2 ∧ ∃ j ∈ js 1, sameNotice j (Trace.notice "start") = true ∧ undelivered j = true ∧
      j ∈ js 2 := by
  have h : JobRun (jobsAfter [Trace.kept 0, Trace.kept 1]) Trace.kept 2 := by
    refine ⟨rfl, fun i hi => ?_, fun i hi => ?_⟩
    · rcases i with _ | _ | i
      · rfl
      · rfl
      · omega
    · rcases i with _ | _ | i
      all_goals intro events s m he
      all_goals cases he
      all_goals decide +kernel
  have hr : ∀ i, i < 2 → ∀ events s m, Trace.kept i = .commit events s m →
      ¬ Reclaims events (jobsAfter [Trace.kept 0, Trace.kept 1] i) s m := by
    intro i hi
    rcases i with _ | _ | i
    all_goals intro events s m he
    · cases he
      decide +kernel
    · cases he
      decide +kernel
    · omega
  refine ⟨_, h, ?_⟩
  refine (replacement_law h hr (k := 1) (by decide) rfl).1 0 (by decide) .empty (Trace.notice "turn")
    (Trace.notice "start") rfl (by decide +kernel) (fun q h₁ h₂ => ?_)
  obtain rfl : q = 1 := by omega
  decide +kernel

theorem job_lists_survive_kept : ∃ js st', JobRun js Trace.kept 1 ∧
    setJobs (fun _ => true) .empty Trace.room (js 1) = (st', true) ∧ js 1 ≠ [] ∧
    (loadJobs st'.notifications).get Trace.room = some (js 1) := by
  have h : JobRun (jobsAfter [Trace.kept 0]) Trace.kept 1 := by
    refine ⟨rfl, fun i hi => ?_, fun i hi => ?_⟩
    · obtain rfl : i = 0 := by omega
      rfl
    · obtain rfl : i = 0 := by omega
      intro events s m he
      cases he
      decide +kernel
  have hs : ∃ st', setJobs (fun _ => true) .empty Trace.room (jobsAfter [Trace.kept 0] 1) = (st', true) := ⟨_, rfl⟩
  obtain ⟨st', hs⟩ := hs
  have hne : jobsAfter [Trace.kept 0] 1 ≠ [] := by decide +kernel
  refine ⟨_, st', h, hs, hne, ?_⟩
  rw [(job_lists_survive h (fun i hi job failed now he => by
    obtain rfl : i = 0 := by omega
    cases he) (by decide +kernel) hs).2, if_neg hne]

end JobRun

end Relay
