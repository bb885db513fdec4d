import Mathlib
/-!
# Chain — sequences of labelled moves

`Chain move P s t`: moves from `s` to `t`, each under a label that `P` allows in the state it is made in.  What every
allowed move keeps, a chain keeps.
-/
namespace Relay

variable {σ α : Type}

def Chain (move : α → σ → σ → Prop) (P : α → σ → Prop) : σ → σ → Prop :=
  Relation.ReflTransGen (fun s t => ∃ a, P a s ∧ move a s t)

namespace Chain

variable {move : α → σ → σ → Prop} {P Q : α → σ → Prop} {s t u : σ}

theorem refl (s : σ) : Chain move P s s := Relation.ReflTransGen.refl

theorem single {a : α} (ha : P a s) (h : move a s t) : Chain move P s t := Relation.ReflTransGen.single ⟨a, ha, h⟩

theorem trans (h : Chain move P s t) (h' : Chain move P t u) : Chain move P s u := Relation.ReflTransGen.trans h h'

theorem mono (hPQ : ∀ a s, P a s → Q a s) (h : Chain move P s t) : Chain move Q s t :=
  Relation.ReflTransGen.mono (fun _ _ ⟨a, ha, hm⟩ => ⟨a, hPQ a _ ha, hm⟩) _ _ h

/-- **What every allowed move keeps, a chain keeps.** -/
theorem invariant {I : σ → Prop} (hI : ∀ a s t, P a s → move a s t → I s → I t) (h : Chain move P s t) (hs : I s) :
    I t := by
  induction h with
  | refl => exact hs
  | tail _ hm ih =>
    obtain ⟨a, ha, hm⟩ := hm
    exact hI a _ _ ha hm ih

/-- **A relation that composes and holds across every allowed move holds across a chain**, given an invariant. -/
theorem relates {I : σ → Prop} {R : σ → σ → Prop} (hrefl : ∀ s, R s s) (htrans : ∀ s t u, R s t → R t u → R s u)
    (hI : ∀ a s t, P a s → move a s t → I s → I t) (hR : ∀ a s t, P a s → move a s t → I s → R s t)
    (h : Chain move P s t) (hs : I s) : R s t := by
  induction h with
  | refl => exact hrefl s
  | tail h hm ih =>
    obtain ⟨a, ha, hm⟩ := hm
    exact htrans _ _ _ ih (hR a _ _ ha hm (invariant hI h hs))

end Chain
end Relay
