import Mathlib
/-!
# Windows — counting in windows that open when they are needed

A meter counts entries in a window of fixed width; the first entry after the window's end opens the next one.
`Windowed` is what the list of counted entries then satisfies, whatever their windows' alignment; `Metered` ties the list
to the meter, so that it grows by `count` and `reopen`.
-/
namespace Relay

variable {α : Type}

/-- The entries of one window are few, and windows do not overlap. -/
structure Windowed (width limit : Nat) (time window : α → Nat) (l : List α) : Prop where
  inside : ∀ x ∈ l, window x ≤ time x ∧ time x < window x + width
  apart : ∀ x ∈ l, ∀ y ∈ l, window x < window y → window x + width ≤ window y
  bounded : ∀ w, l.countP (fun x => decide (window x = w)) ≤ limit

/-- The meter's window was opened at `opened` and has counted `count`; it is `now`. -/
structure Metered (width limit : Nat) (time window : α → Nat) (l : List α) (opened count now : Nat) : Prop
    extends Windowed width limit time window l where
  past : opened ≤ now
  latest : ∀ x ∈ l, window x = opened ∨ window x + width ≤ opened
  counted : l.countP (fun x => decide (window x = opened)) ≤ count

theorem countP_or_le (p q : α → Bool) (l : List α) : l.countP (fun x => p x || q x) ≤ l.countP p + l.countP q := by
  induction l with
  | nil => exact Nat.zero_le _
  | cons x l ih =>
    simp only [List.countP_cons]
    cases p x <;> cases q x <;> simp <;> omega

variable {width limit : Nat} {time window : α → Nat} {l : List α}

namespace Windowed

theorem nil : Windowed width limit time window [] :=
  ⟨(fun _ h => nomatch h), (fun _ h => nomatch h), fun _ => Nat.zero_le _⟩

/-- An interval as wide as a window meets at most two windows. -/
theorem two_windows (h : Windowed width limit time window l) {a : Nat} {x y z : α} (hx : x ∈ l) (hy : y ∈ l) (hz : z ∈ l)
    (hxa : a ≤ time x ∧ time x ≤ a + width) (hya : a ≤ time y ∧ time y ≤ a + width)
    (hza : a ≤ time z ∧ time z ≤ a + width) (hxy : window y ≠ window x) : window z = window x ∨ window z = window y := by
  have hix := h.inside x hx
  have hiy := h.inside y hy
  have hiz := h.inside z hz
  have hxy' := h.apart x hx y hy
  have hyx := h.apart y hy x hx
  have hxz := h.apart x hx z hz
  have hzx := h.apart z hz x hx
  have hyz := h.apart y hy z hz
  have hzy := h.apart z hz y hy
  omega

/-- **An interval as wide as a window holds at most twice the limit.** -/
theorem interval (h : Windowed width limit time window l) (a : Nat) :
    l.countP (fun x => decide (a ≤ time x ∧ time x ≤ a + width)) ≤ 2 * limit := by
  by_cases hone : ∃ w, ∀ y ∈ l, a ≤ time y ∧ time y ≤ a + width → window y = w
  · obtain ⟨w, hw⟩ := hone
    calc l.countP (fun y => decide (a ≤ time y ∧ time y ≤ a + width))
        ≤ l.countP (fun y => decide (window y = w)) :=
          List.countP_mono_left (fun y hy ha => decide_eq_true (hw y hy (of_decide_eq_true ha)))
      _ ≤ 2 * limit := Nat.le_trans (h.bounded w) (by omega)
  have hother : ∀ w, ∃ y ∈ l, (a ≤ time y ∧ time y ≤ a + width) ∧ window y ≠ w := by
    intro w
    by_contra hno
    exact hone ⟨w, fun y hy ha => by_contra (fun hw => hno ⟨y, hy, ha, hw⟩)⟩
  obtain ⟨x, hx, hxa, -⟩ := hother 0
  obtain ⟨y, hy, hya, hxy⟩ := hother (window x)
  calc l.countP (fun z => decide (a ≤ time z ∧ time z ≤ a + width))
      ≤ l.countP (fun z => decide (window z = window x) || decide (window z = window y)) :=
        List.countP_mono_left (fun z hz ha => by
          rw [Bool.or_eq_true, decide_eq_true_eq, decide_eq_true_eq]
          exact h.two_windows hx hy hz hxa hya (of_decide_eq_true ha) hxy)
    _ ≤ l.countP (fun z => decide (window z = window x)) + l.countP (fun z => decide (window z = window y)) :=
        countP_or_le _ _ l
    _ ≤ 2 * limit := by
        have hbx := h.bounded (window x)
        have hby := h.bounded (window y)
        omega

end Windowed

namespace Metered

variable {opened count now : Nat}

theorem nil (h : opened ≤ now) : Metered width limit time window [] opened count now :=
  ⟨Windowed.nil, h, (fun _ h => nomatch h), Nat.zero_le _⟩

theorem later (h : Metered width limit time window l opened count now) {now' : Nat} (hn : now ≤ now') :
    Metered width limit time window l opened count now' :=
  { h with past := Nat.le_trans h.past hn }

/-- The meter counts, whether or not an entry comes of it. -/
theorem charge (h : Metered width limit time window l opened count now) :
    Metered width limit time window l opened (count + 1) now :=
  { h with counted := Nat.le_succ_of_le h.counted }

/-- **The window counts one more entry.** -/
theorem count_one (h : Metered width limit time window l opened count now) (hlt : count < limit)
    (hnow : now < opened + width) {x : α} (ht : time x = now) (hw : window x = opened) :
    Metered width limit time window (l ++ [x]) opened (count + 1) now := by
  have hmem : ∀ y ∈ l ++ [x], y ∈ l ∨ y = x := fun y hy => (List.mem_append.1 hy).imp_right List.mem_singleton.1
  have hsnoc : ∀ w, (l ++ [x]).countP (fun y => decide (window y = w)) =
      l.countP (fun y => decide (window y = w)) + if opened = w then 1 else 0 := by
    intro w
    rw [List.countP_append, List.countP_singleton, hw]
    split <;> simp_all
  refine ⟨⟨fun y hy => ?_, fun y hy z hz hyz => ?_, fun w => ?_⟩, h.past, fun y hy => ?_, ?_⟩
  · rcases hmem y hy with hy | rfl
    · exact h.inside y hy
    · rw [ht, hw]; exact ⟨h.past, hnow⟩
  · rcases hmem y hy with hyl | rfl
    · rcases hmem z hz with hzl | rfl
      · exact h.apart y hyl z hzl hyz
      · have := h.latest y hyl
        omega
    · rcases hmem z hz with hzl | rfl
      · have := h.latest z hzl
        omega
      · exact absurd hyz (Nat.lt_irrefl _)
  · rw [hsnoc]
    have hb := h.bounded w
    split
    · rename_i he
      have := h.counted
      rw [he] at this
      omega
    · exact hb
  · rcases hmem y hy with hy | rfl
    · exact h.latest y hy
    · exact .inl hw
  · rw [hsnoc, if_pos rfl]
    exact Nat.succ_le_succ h.counted

/-- **A new window opens** once the last one is over. -/
theorem reopen (h : Metered width limit time window l opened count now) (hw : 0 < width) (hnow : opened + width ≤ now) :
    Metered width limit time window l now 0 now := by
  have hold : ∀ x ∈ l, window x + width ≤ now := fun x hx => by
    have := h.latest x hx
    omega
  refine { h with past := Nat.le_refl now, latest := fun x hx => .inr (hold x hx), counted := Nat.le_of_eq ?_ }
  refine List.countP_eq_zero.2 (fun x hx => ?_)
  have := hold x hx
  simp only [decide_eq_true_eq]
  omega

end Metered
end Relay
