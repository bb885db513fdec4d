import Mathlib
/-!
# Ledger — lists whose entries answer to what came before

`Ledger P l`: every entry `e` of `l` satisfies `P pre e`, where `pre` is what stands before it.  Laws about a history
that only grows are proved entry by entry, as it grows.
-/
namespace Relay

variable {α : Type}

def Ledger (P : List α → α → Prop) (l : List α) : Prop := ∀ pre e post, l = pre ++ e :: post → P pre e

namespace Ledger

variable {P Q : List α → α → Prop}

theorem nil : Ledger P [] := by
  intro pre e post h
  exact absurd h.symm (by simp)

/-- **A ledger grows by entries that answer to it.** -/
theorem append_iff {a b : List α} : Ledger P (a ++ b) ↔ Ledger P a ∧ Ledger (fun pre e => P (a ++ pre) e) b := by
  constructor
  · intro h
    refine ⟨fun pre e post hl => h pre e (post ++ b) ?_, fun pre e post hl => h (a ++ pre) e post ?_⟩
    · rw [hl, List.append_assoc, List.cons_append]
    · rw [hl, List.append_assoc]
  · rintro ⟨ha, hb⟩ pre e post hl
    rcases List.append_eq_append_iff.1 hl with ⟨m, hm, hb'⟩ | ⟨m, hm, hb'⟩
    · rw [hm]
      exact hb m e post hb'
    · cases m with
      | nil =>
        have h : P (a ++ []) e := hb [] e post (by simpa using hb'.symm)
        rw [hm, List.append_nil, List.append_nil] at h
        exact h
      | cons x m =>
        rw [List.cons_append, List.cons.injEq] at hb'
        obtain ⟨rfl, -⟩ := hb'
        exact ha pre e m hm

theorem singleton_iff {e : α} : Ledger P [e] ↔ P [] e := by
  constructor
  · intro h; exact h [] e [] rfl
  · intro h pre e' post hl
    cases pre with
    | nil => cases hl; exact h
    | cons x pre => exact absurd hl (by simp)

theorem snoc_iff {l : List α} {e : α} : Ledger P (l ++ [e]) ↔ Ledger P l ∧ P l e := by
  rw [append_iff, singleton_iff, List.append_nil]

/-- Entries of which `P` asks nothing. -/
theorem append_free {a b : List α} (ha : Ledger P a) (hb : ∀ e ∈ b, ∀ pre, P pre e) : Ledger P (a ++ b) :=
  append_iff.2 ⟨ha, fun pre e post hl => hb e (by rw [hl]; exact List.mem_append_right _ (List.mem_cons_self ..)) _⟩

end Ledger
end Relay
