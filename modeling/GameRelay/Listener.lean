import GameRelay.Budgets
/-!
# Listener — the datagrams that reach the state worker (`udp.rs`)

`run` reads a datagram into a buffer one byte longer than allowed, drops what does not fit, and hands the rest to the
worker within one budget for all sources.  The budget's windows are those of `Windowed`; **it lets through all it may and
no more** (`global_budget_is_exact`).
-/
namespace Relay

open Udp

structure Arrival where
  /-- In milliseconds since the listener started. -/
  time : Nat
  bytes : Bytes
  source : String

structure Listener where
  rate : Rate := ⟨0, 0⟩
  /-- What the budget let through, and what was handed to the worker. -/
  passed : List Passage := []
  handed : List (Bytes × String) := []

namespace Listener

/-- How much of a datagram lands in the buffer. -/
def received (max : Nat) (a : Arrival) : Nat := min a.bytes.length (max + 1)

def receive (max limit : Nat) (l : Listener) (a : Arrival) : Listener :=
  if received max a > max then l
  else
    let r := l.rate.accept a.time limit
    if r.2 then
      { rate := r.1, passed := l.passed ++ [⟨connectionOf a.bytes, a.time, r.1.time⟩],
        handed := l.handed ++ [(a.bytes, a.source)] }
    else { l with rate := r.1 }

def run (max limit : Nat) (l : Listener) (arrivals : List Arrival) : Listener := arrivals.foldl (receive max limit) l

variable {limit : Nat} {l : Listener}

theorem received_le {max : Nat} {a : Arrival} : received max a ≤ max ↔ a.bytes.length ≤ max := by
  unfold received
  omega

/-- The listener's window, and that its counter is exact; it is `now`. -/
structure Metes (limit now : Nat) (l : Listener) : Prop where
  spends : Server.Spends limit l.passed l.rate now
  exact : l.rate.count = l.passed.countP (fun x => decide (x.window = l.rate.time))

theorem Metes.start : Metes limit 0 {} := ⟨Metered.nil (Nat.le_refl 0), rfl⟩

/-- **What the budget does with a datagram.**  It lets it through and counts it, or its window is full. -/
theorem Metes.accept {t : Nat} (h : l.Metes limit t) (cid : Nat) :
    ((l.rate.accept t limit).2 = true ∧ Metes limit t
        { l with
          rate := (l.rate.accept t limit).1,
          passed := l.passed ++ [⟨cid, t, (l.rate.accept t limit).1.time⟩] }) ∨
      ((l.rate.accept t limit).2 = false ∧ Metes limit t { l with rate := (l.rate.accept t limit).1 } ∧
        ∃ w, w ≤ t ∧ t < w + 1000 ∧ limit ≤ l.passed.countP (fun x => decide (x.window = w))) := by
  obtain ⟨hspend, hpass⟩ := h.spends.accept
  have hpast := hspend.past
  -- in the window that is open now the counter is exact
  have hexact : ∃ n, n = l.passed.countP (fun x => decide (x.window = (l.rate.accept t limit).1.time)) ∧
      ((limit ≤ n ∧ l.rate.accept t limit = (⟨(l.rate.accept t limit).1.time, n⟩, false)) ∨
        l.rate.accept t limit = (⟨(l.rate.accept t limit).1.time, n + 1⟩, true)) ∧
      t < (l.rate.accept t limit).1.time + 1000 := by
    by_cases hopen : 1000 ≤ t - l.rate.time
    · have hnone : l.passed.countP (fun x => decide (x.window = t)) = 0 := by
        have hre := h.spends.reopen (by omega) (show l.rate.time + 1000 ≤ t by omega)
        exact Nat.le_zero.1 hre.counted
      by_cases hfull : limit ≤ 0
      · have he : l.rate.accept t limit = (⟨t, 0⟩, false) := by simp only [Rate.accept, if_pos hopen, if_pos hfull]
        rw [he]
        exact ⟨0, hnone.symm, .inl ⟨hfull, rfl⟩, by dsimp only; omega⟩
      · have he : l.rate.accept t limit = (⟨t, 1⟩, true) := by
          simp only [Rate.accept, if_pos hopen, if_neg hfull]
        rw [he]
        exact ⟨0, hnone.symm, .inr rfl, by dsimp only; omega⟩
    · by_cases hfull : limit ≤ l.rate.count
      · have he : l.rate.accept t limit = (l.rate, false) := by simp only [Rate.accept, if_neg hopen, if_pos hfull]
        rw [he]
        exact ⟨l.rate.count, h.exact, .inl ⟨hfull, rfl⟩, by dsimp only; omega⟩
      · have he : l.rate.accept t limit = (⟨l.rate.time, l.rate.count + 1⟩, true) := by
          simp only [Rate.accept, if_neg hopen, if_neg hfull]
        rw [he]
        exact ⟨l.rate.count, h.exact, .inr rfl, by dsimp only; omega⟩
  obtain ⟨n, hn, hcase, hopen⟩ := hexact
  generalize l.rate.accept t limit = r at *
  rcases hcase with ⟨hfull, hr⟩ | hr
  · refine .inr ⟨by rw [hr], ⟨hspend, ?_⟩, r.1.time, hpast, hopen, hn ▸ hfull⟩
    show r.1.count = _
    rw [← hn, hr]
  · refine .inl ⟨by rw [hr], ⟨hpass (by rw [hr]) _ rfl rfl, ?_⟩⟩
    show r.1.count = (l.passed ++ [(⟨cid, t, r.1.time⟩ : Passage)]).countP (fun x => decide (x.window = r.1.time))
    rw [List.countP_append, ← hn, List.countP_singleton, if_pos (decide_eq_true rfl), hr]

/-- What one arrival does. -/
theorem Metes.receive (max : Nat) {now : Nat} (h : l.Metes limit now) {a : Arrival} (ha : now ≤ a.time) :
    (l.receive max limit a).Metes limit a.time ∧
      ((l.receive max limit a).handed = l.handed ∧ (l.receive max limit a).passed = l.passed ∧
          (a.bytes.length ≤ max → ∃ w, w ≤ a.time ∧ a.time < w + 1000 ∧
            limit ≤ l.passed.countP (fun x => decide (x.window = w))) ∨
        a.bytes.length ≤ max ∧ (l.receive max limit a).handed = l.handed ++ [(a.bytes, a.source)]) := by
  have h' : l.Metes limit a.time := ⟨h.spends.later ha, h.exact⟩
  unfold Listener.receive
  split
  · rename_i hsize
    exact ⟨h', .inl ⟨rfl, rfl, fun hle => absurd (received_le.2 hle) (Nat.not_le.2 hsize)⟩⟩
  · rename_i hsize
    have hle : a.bytes.length ≤ max := received_le.1 (Nat.le_of_not_lt hsize)
    dsimp only
    rcases h'.accept (connectionOf a.bytes) with ⟨hr, hm⟩ | ⟨hr, hm, hw⟩
    · rw [if_pos hr]
      exact ⟨⟨hm.spends, hm.exact⟩, .inr ⟨hle, rfl⟩⟩
    · rw [hr, if_neg Bool.false_ne_true]
      exact ⟨hm, .inl ⟨rfl, rfl, fun _ => hw⟩⟩

theorem Metes.run (max : Nat) : ∀ (arrivals : List Arrival) {l : Listener} {now : Nat}, l.Metes limit now →
    (∀ a ∈ arrivals, now ≤ a.time) → arrivals.Pairwise (fun a b => a.time ≤ b.time) →
    (∃ now', (l.run max limit arrivals).Metes limit now' ∧ ∀ t, now ≤ t → (∀ a ∈ arrivals, a.time ≤ t) → now' ≤ t) ∧
      ∃ more, (l.run max limit arrivals).handed = l.handed ++ more ∧
        more.Sublist (arrivals.map (fun a => (a.bytes, a.source))) ∧ ∀ x ∈ more, x.1.length ≤ max
  | [], l, now, h, _, _ => ⟨⟨now, h, fun _ ht _ => ht⟩, [], (List.append_nil _).symm, List.Sublist.refl _,
      fun _ hx => absurd hx List.not_mem_nil⟩
  | a :: arrivals, l, now, h, hnow, hsorted => by
    obtain ⟨hhead, htail⟩ := List.pairwise_cons.1 hsorted
    obtain ⟨hm, hcase⟩ := h.receive max (hnow a List.mem_cons_self)
    obtain ⟨⟨now', hm', hlast⟩, more, hmore, hsub, hsize⟩ := Metes.run max arrivals hm hhead htail
    refine ⟨⟨now', hm', fun t _ ht => hlast t (ht a List.mem_cons_self) (fun b hb => ht b (List.mem_cons_of_mem _ hb))⟩, ?_⟩
    rcases hcase with ⟨hh, -, -⟩ | ⟨hle, hh⟩
    · rw [hh] at hmore
      exact ⟨more, hmore, hsub.cons _, hsize⟩
    · rw [hh, List.append_assoc] at hmore
      exact ⟨(a.bytes, a.source) :: more, hmore, hsub.cons_cons _, List.forall_mem_cons.2 ⟨hle, hsize⟩⟩

/-- **The global budget lets through all it may and no more.**  Of the datagrams that arrive, one after the other in time,
those handed to the worker are some, in order, none too long; one window lets `limit` through at most, so any second twice
as many.  One that fits is dropped only in a window that has let `limit` through. -/
theorem global_budget_is_exact (max limit : Nat) (arrivals : List Arrival)
    (hsorted : arrivals.Pairwise (fun a b => a.time ≤ b.time)) :
    let l := run max limit {} arrivals
    l.handed.Sublist (arrivals.map (fun a => (a.bytes, a.source))) ∧ (∀ x ∈ l.handed, x.1.length ≤ max) ∧
    Windowed 1000 limit Passage.time Passage.window l.passed ∧
    (∀ t, l.passed.countP (fun x => decide (t ≤ x.time ∧ x.time ≤ t + 1000)) ≤ 2 * limit) ∧
    ∀ before a after, arrivals = before ++ a :: after → a.bytes.length ≤ max →
      (run max limit {} (before ++ [a])).handed = (run max limit {} before).handed ++ [(a.bytes, a.source)] ∨
        ∃ w, w ≤ a.time ∧ a.time < w + 1000 ∧
          (run max limit {} before).passed.countP (fun x => decide (x.window = w)) = limit := by
  intro l
  obtain ⟨⟨now, hm, -⟩, more, hmore, hsub, hsize⟩ :=
    Metes.start.run max arrivals (fun a _ => Nat.zero_le a.time) hsorted
  rw [List.nil_append] at hmore
  refine ⟨hmore ▸ hsub, hmore ▸ hsize, hm.spends.toWindowed, hm.spends.toWindowed.interval, fun before a after he hfit => ?_⟩
  rw [he] at hsorted
  obtain ⟨hbefore, -, hlast⟩ := List.pairwise_append.1 hsorted
  obtain ⟨⟨now', hm', hle⟩, -⟩ := Metes.start.run max before (fun b _ => Nat.zero_le b.time) hbefore
  have hnow : now' ≤ a.time := hle a.time (Nat.zero_le _) (fun b hb => hlast b hb a List.mem_cons_self)
  have hrun : run max limit {} (before ++ [a]) = (run max limit {} before).receive max limit a := by
    unfold run
    rw [List.foldl_append]
    rfl
  rw [hrun]
  rcases (hm'.receive max hnow).2 with ⟨-, -, hfull⟩ | ⟨-, hh⟩
  · obtain ⟨w, hw, ht, hcount⟩ := hfull hfit
    exact .inr ⟨w, hw, ht, Nat.le_antisymm (hm'.spends.bounded w) hcount⟩
  · exact .inl hh

/-- Two datagrams in one window of one. -/
theorem global_budget_is_exact_full :
    let arrivals : List Arrival := [⟨5, [1], "a"⟩, ⟨6, [2], "b"⟩]
    arrivals.Pairwise (fun a b => a.time ≤ b.time) ∧ (run 85 1 {} arrivals).handed = [([1], "a")] ∧
      Windowed 1000 1 Passage.time Passage.window (run 85 1 {} arrivals).passed :=
  ⟨by decide, by decide, (global_budget_is_exact 85 1 [⟨5, [1], "a"⟩, ⟨6, [2], "b"⟩] (by decide)).2.2.1⟩

end Listener
end Relay
