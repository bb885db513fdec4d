import Mathlib
import GameRelay.Datagram
/-!
# Sequences — the replay window is a set of numbers

`Window` says what the replay window is for: the set of the sequence numbers accepted so far.  A number is admitted when
it is new and less than 64 below the highest one.  `Replay.Stands` reads the set off the 64 bits, which one shift moves
along; **the window accepts exactly what the set admits** (`window_admits`).
-/
namespace Relay.Udp

/-- The numbers accepted so far. -/
abbrev Window := Finset ℕ

namespace Window

/-- The highest of them, 0 when there is none. -/
def highest (S : Window) : ℕ := S.sup id

/-- May this number be accepted? -/
def Admits (S : Window) (n : ℕ) : Prop := n ≠ 0 ∧ n ∉ S ∧ S.highest < n + 64

instance (S : Window) (n : ℕ) : Decidable (S.Admits n) := inferInstanceAs (Decidable (_ ∧ _ ∧ _))

/-- Numbers presented one after the other: the set left, and which were accepted. -/
def runs : Window → List ℕ → Window × List Bool
  | S, [] => (S, [])
  | S, n :: ns =>
    let x := runs (if S.Admits n then insert n S else S) ns
    (x.1, decide (S.Admits n) :: x.2)

theorem le_highest {S : Window} {n : ℕ} (h : n ∈ S) : n ≤ S.highest := Finset.le_sup (f := id) h

theorem highest_insert (S : Window) (n : ℕ) : highest (insert n S) = max n S.highest := Finset.sup_insert

end Window

namespace Replay

/-- Numbers presented one after the other: the state left, and which were accepted. -/
def runs : Replay → List ℕ → Replay × List Bool
  | r, [] => (r, [])
  | r, n :: ns =>
    match r.accept n with
    | some r' => ((runs r' ns).1, true :: (runs r' ns).2)
    | none => ((runs r ns).1, false :: (runs r ns).2)

/-! The operations of `accept` with the checks of 64-bit arithmetic: `none` is an overflow. -/

def checkedSub (x y : ℕ) : Option ℕ := if y ≤ x then some (x - y) else none

def checkedShl (x k : ℕ) : Option ℕ := if k < 64 then some ((x <<< k) % 2 ^ 64) else none

/-- `accept` in checked arithmetic. -/
def checked (r : Replay) (sequence : ℕ) : Option (Replay × Bool) :=
  if sequence = 0 then some (r, false)
  else if r.highest < sequence then do
    let shift ← checkedSub sequence r.highest
    let bits ← if 64 ≤ shift then some 1 else (checkedShl r.bits shift).map (· ||| 1)
    some (⟨sequence, bits⟩, true)
  else do
    let distance ← checkedSub r.highest sequence
    if 64 ≤ distance then some (r, false)
    else do
      let bit ← checkedShl 1 distance
      if r.bits &&& bit ≠ 0 then some (r, false) else some ({ r with bits := r.bits ||| bit }, true)

/-- **No operation of `accept` overflows**, and the checked one is the model's. -/
theorem checked_eq (r : Replay) (n : ℕ) :
    r.checked n = some (match r.accept n with | some r' => (r', true) | none => (r, false)) := by
  unfold checked accept
  by_cases h0 : n = 0
  · rw [if_pos h0, if_pos h0]
  rw [if_neg h0, if_neg h0]
  by_cases hlt : r.highest < n
  · rw [if_pos hlt, if_pos hlt]
    simp only [checkedSub, if_pos (Nat.le_of_lt hlt), Option.bind_eq_bind, Option.bind_some]
    by_cases hfar : 64 ≤ n - r.highest
    · simp only [if_pos hfar]
    · simp only [if_neg hfar, checkedShl, if_pos (Nat.lt_of_not_le hfar), Option.map_some, Option.bind_some]
  · rw [if_neg hlt, if_neg hlt]
    simp only [checkedSub, if_pos (Nat.le_of_not_lt hlt), Option.bind_eq_bind, Option.bind_some]
    generalize r.highest - n = d
    by_cases hfar : 64 ≤ d
    · rw [if_pos hfar, if_pos (.inl hfar)]
    · have hd : d < 64 := Nat.lt_of_not_le hfar
      have hbit : (1 <<< d) % 2 ^ 64 = 2 ^ d := by
        rw [Nat.one_shiftLeft, Nat.mod_eq_of_lt (Nat.pow_lt_pow_right (by decide) hd)]
      have hand : r.bits &&& 2 ^ d ≠ 0 ↔ r.bits.testBit d = true := by
        rw [Nat.and_two_pow]
        cases r.bits.testBit d <;> simp
      simp only [checkedShl, if_pos hd, Option.bind_some, hbit, hand, hfar, false_or, if_false]
      by_cases ht : r.bits.testBit d = true
      · rw [if_pos ht, if_pos ht]
      · rw [if_neg ht, if_neg ht]

/-- The state stands for this set: bit `d` is the number `d` below the highest. -/
structure Stands (r : Replay) (S : Window) : Prop where
  highest : r.highest = S.highest
  zero : 0 ∉ S
  bits : ∀ d, r.bits.testBit d = true ↔ d < 64 ∧ ∃ n ∈ S, n + d = S.highest

namespace Stands

variable {r : Replay} {S : Window} {n : ℕ}

theorem empty : Stands ⟨0, 0⟩ ∅ := by
  refine ⟨rfl, Finset.notMem_empty 0, fun d => ?_⟩
  simp

theorem testBit_one (d : ℕ) : Nat.testBit 1 d = decide (d = 0) := by
  rw [show (1 : ℕ) = 2 ^ 0 from rfl, Nat.testBit_two_pow]
  exact decide_eq_decide.2 eq_comm

/-- The bits are one 64-bit word. -/
theorem lt (h : r.Stands S) : r.bits < 2 ^ 64 := by
  refine Nat.lt_pow_two_of_testBit _ (fun d hd => Bool.eq_false_iff.2 (fun ht => ?_))
  exact absurd ((h.bits d).1 ht).1 (by omega)

/-- A number above all others moves the window; what stays inside keeps its bit. -/
theorem jump (h : r.Stands S) (hn : S.highest < n) :
    Stands ⟨n, if 64 ≤ n - r.highest then 1 else (r.bits <<< (n - r.highest)) % 2 ^ 64 ||| 1⟩ (insert n S) := by
  have hmax : Window.highest (insert n S) = n := by rw [Window.highest_insert]; omega
  refine ⟨hmax.symm, fun h0 => ?_, fun d => ?_⟩
  · rcases Finset.mem_insert.1 h0 with h0 | h0
    · omega
    · exact h.zero h0
  rw [hmax, h.highest]
  -- the new number is bit 0, an older one `m` is bit `n - m`
  have hold : (∃ m ∈ insert n S, m + d = n) ↔ d = 0 ∨ ∃ m ∈ S, m + d = n := by
    constructor
    · rintro ⟨m, hm, he⟩
      rcases Finset.mem_insert.1 hm with rfl | hm
      · exact .inl (by omega)
      · exact .inr ⟨m, hm, he⟩
    · rintro (rfl | ⟨m, hm, he⟩)
      · exact ⟨n, Finset.mem_insert_self n S, rfl⟩
      · exact ⟨m, Finset.mem_insert_of_mem hm, he⟩
  rw [hold]
  split
  · rename_i hfar
    rw [testBit_one, decide_eq_true_iff]
    constructor
    · rintro rfl
      exact ⟨by decide, .inl rfl⟩
    · rintro ⟨hd, rfl | ⟨m, hm, he⟩⟩
      · rfl
      · have := Window.le_highest hm
        omega
  · rename_i hnear
    rw [Nat.testBit_or, Nat.testBit_mod_two_pow, Nat.testBit_shiftLeft, testBit_one]
    simp only [Bool.or_eq_true, Bool.and_eq_true, decide_eq_true_eq, h.bits]
    constructor
    · rintro (⟨hd, hle, -, m, hm, he⟩ | rfl)
      · exact ⟨hd, .inr ⟨m, hm, by omega⟩⟩
      · exact ⟨by decide, .inl rfl⟩
    · rintro ⟨hd, rfl | ⟨m, hm, he⟩⟩
      · exact .inr rfl
      · have := Window.le_highest hm
        exact .inl ⟨hd, by omega, by omega, m, hm, by omega⟩

/-- A number inside the window sets its own bit. -/
theorem fill (h : r.Stands S) (h0 : n ≠ 0) (hn : n ≤ S.highest) (hd : S.highest < n + 64) :
    Stands { r with bits := r.bits ||| 2 ^ (r.highest - n) } (insert n S) := by
  have hmax : Window.highest (insert n S) = S.highest := by rw [Window.highest_insert]; omega
  refine ⟨by rw [hmax]; exact h.highest, fun hz => ?_, fun d => ?_⟩
  · rcases Finset.mem_insert.1 hz with hz | hz
    · exact h0 hz.symm
    · exact h.zero hz
  rw [hmax, h.highest]
  show Nat.testBit (r.bits ||| 2 ^ (S.highest - n)) d = true ↔ _
  rw [Nat.testBit_or, Nat.testBit_two_pow, Bool.or_eq_true, decide_eq_true_iff, h.bits]
  constructor
  · rintro (⟨hd, m, hm, he⟩ | rfl)
    · exact ⟨hd, m, Finset.mem_insert_of_mem hm, he⟩
    · exact ⟨by omega, n, Finset.mem_insert_self n S, by omega⟩
  · rintro ⟨hd, m, hm, he⟩
    rcases Finset.mem_insert.1 hm with rfl | hm
    · exact .inr (by omega)
    · exact .inl ⟨hd, m, hm, he⟩

/-- **One number**: it is accepted exactly when the set admits it, and the state goes on standing for the set. -/
theorem accept (h : r.Stands S) (n : ℕ) :
    if S.Admits n then ∃ r', r.accept n = some r' ∧ r'.Stands (insert n S) else r.accept n = none := by
  unfold Replay.accept
  by_cases h0 : n = 0
  · rw [if_pos h0, if_neg (fun ha => ha.1 h0)]
  rw [if_neg h0, h.highest]
  by_cases hlt : S.highest < n
  · have ha : S.Admits n := ⟨h0, fun hm => absurd (Window.le_highest hm) (by omega), by omega⟩
    rw [if_pos ha, if_pos hlt]
    have := h.jump hlt
    rw [h.highest] at this
    exact ⟨_, rfl, this⟩
  rw [if_neg hlt]
  dsimp only
  have hbit : r.bits.testBit (S.highest - n) = true ↔ S.highest - n < 64 ∧ n ∈ S := by
    rw [h.bits]
    refine and_congr_right (fun _ => ⟨?_, fun hm => ⟨n, hm, by omega⟩⟩)
    rintro ⟨m, hm, he⟩
    obtain rfl : m = n := by omega
    exact hm
  by_cases ha : S.Admits n
  · obtain ⟨-, hnew, hnear⟩ := ha
    rw [if_pos ⟨h0, hnew, hnear⟩, if_neg (fun hc => ?_)]
    · have := h.fill h0 (Nat.le_of_not_lt hlt) hnear
      rw [h.highest] at this
      exact ⟨_, rfl, this⟩
    · rcases hc with hc | hc
      · omega
      · exact hnew (hbit.1 hc).2
  · rw [if_neg ha, if_pos]
    by_cases hfar : 64 ≤ S.highest - n
    · exact .inl hfar
    · refine .inr (hbit.2 ⟨by omega, ?_⟩)
      by_contra hnew
      exact ha ⟨h0, hnew, by omega⟩

theorem runs : ∀ (ns : List ℕ) {r : Replay} {S : Window}, r.Stands S →
    (r.runs ns).2 = (S.runs ns).2 ∧ (r.runs ns).1.Stands (S.runs ns).1
  | [], _, _, h => ⟨rfl, h⟩
  | n :: ns, r, S, h => by
    have ha := h.accept n
    unfold Replay.runs Window.runs
    split at ha
    · rename_i hadm
      obtain ⟨r', hr', hs⟩ := ha
      rw [hr', if_pos hadm, decide_eq_true hadm]
      obtain ⟨hflags, hstands⟩ := runs ns hs
      exact ⟨congrArg (true :: ·) hflags, hstands⟩
    · rename_i hadm
      rw [ha, if_neg hadm, decide_eq_false hadm]
      obtain ⟨hflags, hstands⟩ := runs ns h
      exact ⟨congrArg (false :: ·) hflags, hstands⟩

end Stands

/-- **The 64-bit window is the set of accepted numbers**: it accepts what the set admits, whatever the numbers and their
order, and bit `d` of its word is whether the number `d` below the highest was accepted. -/
theorem window_admits (ns : List ℕ) :
    (∀ r n, checked r n = some (match accept r n with | some r' => (r', true) | none => (r, false))) ∧
      (runs ⟨0, 0⟩ ns).2 = (Window.runs ∅ ns).2 ∧ (runs ⟨0, 0⟩ ns).1.highest = (Window.runs ∅ ns).1.highest ∧
      (runs ⟨0, 0⟩ ns).1.bits < 2 ^ 64 ∧ ∀ d, (runs ⟨0, 0⟩ ns).1.bits.testBit d = true ↔
        d < 64 ∧ ∃ n ∈ (Window.runs ∅ ns).1, n + d = (Window.runs ∅ ns).1.highest := by
  obtain ⟨hflags, hstands⟩ := Stands.runs ns .empty
  exact ⟨checked_eq, hflags, hstands.highest, hstands.lt, hstands.bits⟩

end Replay

end Relay.Udp
