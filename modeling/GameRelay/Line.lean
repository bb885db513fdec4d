import Mathlib
/-!
# Line — a line that members leave anywhere and join at the end

`Lined a b`: the line `b` is what is left of the line `a`, and behind it those who joined.  Whoever is before another in
such a line has stayed at least as long.
-/
namespace Relay

variable {α : Type}

/-- Some left the line, and others joined behind. -/
def Lined (a b : List α) : Prop := ∃ kept new, b = kept ++ new ∧ kept.Sublist a ∧ ∀ x ∈ new, x ∉ a

namespace Lined

variable {a b : List α} {p q : α}

theorem refl (a : List α) : Lined a a := ⟨a, [], (List.append_nil a).symm, List.Sublist.refl a, fun _ h => nomatch h⟩

theorem of_sublist (h : b.Sublist a) : Lined a b := ⟨b, [], (List.append_nil b).symm, h, fun _ h => nomatch h⟩

theorem start (b : List α) : Lined [] b := ⟨[], b, rfl, List.Sublist.refl [], fun _ _ => List.not_mem_nil⟩

theorem snoc (h : p ∉ a) : Lined a (a ++ [p]) :=
  ⟨a, [p], rfl, List.Sublist.refl a, fun x hx => by rw [List.mem_singleton.1 hx]; exact h⟩

/-- **Who stands before a member of old was before it already.** -/
theorem before (h : Lined a b) (hpq : [p, q].Sublist b) (hq : q ∈ a) : [p, q].Sublist a := by
  obtain ⟨kept, new, rfl, hk, hn⟩ := h
  obtain ⟨l₁, l₂, he, h₁, h₂⟩ := List.sublist_append_iff.1 hpq
  have hnil : l₂ = [] := by
    by_contra hne
    have hlast : q ∈ l₂ := by
      have h := congrArg (fun l => l.getLast?) he
      rw [List.getLast?_append_of_ne_nil _ hne] at h
      exact List.mem_of_getLast? h.symm
    exact hn q (h₂.subset hlast) hq
  rw [hnil, List.append_nil] at he
  rw [he]
  exact h₁.trans hk

/-- **Who stands before another has stayed at least as long**: over a sequence of lines, by going back. -/
theorem stays {l : Nat → List α} {n : Nat} (hl : ∀ i, i < n → Lined (l i) (l (i + 1))) (hpq : [p, q].Sublist (l n)) :
    ∀ {k j : Nat}, j + k = n → (∀ i, j ≤ i → i ≤ n → q ∈ l i) → [p, q].Sublist (l j)
  | 0, j, hj, _ => by rw [show j = n by omega]; exact hpq
  | k + 1, j, hj, hq => by
    have hnext := stays hl hpq (k := k) (j := j + 1) (by omega) (fun i hi => hq i (by omega))
    exact (hl j (by omega)).before hnext (hq j (Nat.le_refl j) (by omega))

end Lined
end Relay
