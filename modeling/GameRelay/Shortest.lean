import Mathlib
/-!
# Shortest — the shortest prefix with a property

`Shortest P l r`: `r` is the shortest prefix of `l` that has `P`, or all of `l` when no prefix has it.
-/
namespace Relay

variable {α : Type}

structure Shortest (P : List α → Prop) (l r : List α) : Prop where
  isPrefix : r <+: l
  enough : P r ∨ r = l
  least : ∀ q, q <+: l → P q → r <+: q

namespace Shortest

variable {P : List α → Prop} {l r r' : List α}

theorem nil (P : List α → Prop) : Shortest P [] [] :=
  ⟨List.prefix_rfl, .inr rfl, fun _ _ _ => List.nil_prefix⟩

theorem none (l : List α) (h : P []) : Shortest P l [] :=
  ⟨List.nil_prefix, .inl h, fun _ _ _ => List.nil_prefix⟩

/-- The head is needed, and the rest is shortest after it. -/
theorem cons {a : α} (h : ¬ P []) (hr : Shortest (fun q => P (a :: q)) l r) : Shortest P (a :: l) (a :: r) := by
  refine ⟨List.cons_prefix_cons.2 ⟨rfl, hr.isPrefix⟩, hr.enough.imp_right (congrArg _), fun q hq hp => ?_⟩
  cases q with
  | nil => exact absurd hp h
  | cons b q =>
    obtain ⟨rfl, htail⟩ := List.cons_prefix_cons.1 hq
    exact List.cons_prefix_cons.2 ⟨rfl, hr.least q htail hp⟩

/-- **There is only one.** -/
theorem unique (h : Shortest P l r) (h' : Shortest P l r') : r = r' := by
  have key : ∀ {s t : List α}, Shortest P l s → Shortest P l t → s.length ≤ t.length := by
    intro s t hs ht
    rcases ht.enough with hp | rfl
    · exact (hs.least t ht.isPrefix hp).length_le
    · exact hs.isPrefix.length_le
  exact (List.prefix_of_prefix_length_le h.isPrefix h'.isPrefix (key h h')).eq_of_length
    (Nat.le_antisymm (key h h') (key h' h))

end Shortest
end Relay
