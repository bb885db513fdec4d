import GameRelay.IndexMap
/-!
# Keys — maps with few keys

`AtMost f n`: the partial map `f` has a value at no more than `n` keys.  For an index map that is its size.
-/
namespace Relay

open Function (update)

variable {κ α β : Type}

/-- A key that was there gets another value, or loses it. -/
theorem update_keys [DecidableEq κ] {f : κ → Option α} {k : κ} {o : Option α} (hk : o ≠ none → f k ≠ none) (x : κ)
    (h : update f k o x ≠ none) : f x ≠ none := by
  rw [Function.update_apply] at h
  split at h
  · rename_i he
    rw [he]
    exact hk h
  · exact h

def AtMost (f : κ → Option α) (n : Nat) : Prop := ∃ keys : List κ, keys.length ≤ n ∧ ∀ k, f k ≠ none → k ∈ keys

namespace AtMost

variable {f : κ → Option α} {g : κ → Option β} {n : Nat}

theorem none : AtMost (fun _ : κ => (Option.none : Option α)) n := ⟨[], Nat.zero_le _, fun _ h => absurd rfl h⟩

theorem mono {m : Nat} (h : AtMost f n) (hnm : n ≤ m) : AtMost f m := by
  obtain ⟨keys, hl, hk⟩ := h
  exact ⟨keys, Nat.le_trans hl hnm, hk⟩

/-- A map with no new keys. -/
theorem of_keys (h : AtMost f n) (hg : ∀ k, g k ≠ Option.none → f k ≠ Option.none) : AtMost g n := by
  obtain ⟨keys, hl, hk⟩ := h
  exact ⟨keys, hl, fun k hgk => hk k (hg k hgk)⟩

variable [DecidableEq κ]

/-- **One more key.** -/
theorem insert (h : AtMost f n) (k : κ) (o : Option α) : AtMost (update f k o) (n + 1) := by
  obtain ⟨keys, hl, hk⟩ := h
  refine ⟨k :: keys, Nat.succ_le_succ hl, fun x hx => ?_⟩
  rw [Function.update_apply] at hx
  split at hx
  · rename_i he
    rw [he]
    exact List.mem_cons_self ..
  · exact List.mem_cons_of_mem _ (hk x hx)

end AtMost

namespace IndexMap

variable [DecidableEq κ]

theorem atMost (m : IndexMap κ α) : AtMost m.get m.size := by
  refine ⟨m.entries.map Prod.fst, Nat.le_of_eq (List.length_map ..), fun k hk => ?_⟩
  obtain ⟨v, hv⟩ := Option.ne_none_iff_exists'.1 hk
  exact List.mem_map_of_mem (f := Prod.fst) (mem_entries_of_get hv)

/-- **An index map is as large as it has keys.** -/
theorem size_le {m : IndexMap κ α} {n : Nat} (h : AtMost m.get n) : m.size ≤ n := by
  obtain ⟨keys, hl, hk⟩ := h
  have hsub : m.entries.map Prod.fst ⊆ keys := fun k hmem => by
    obtain ⟨⟨k', v⟩, he, rfl⟩ := List.mem_map.1 hmem
    refine hk k' ?_
    rw [mem_entries.1 he]
    exact Option.some_ne_none v
  calc m.size = (m.entries.map Prod.fst).length := (List.length_map ..).symm
    _ ≤ keys.length := (List.subperm_of_subset m.nodup hsub).length_le
    _ ≤ n := hl

end IndexMap
end Relay
