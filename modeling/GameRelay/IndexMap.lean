import Mathlib
/-!
# IndexMap — insertion-ordered maps and sets

A map is its entries in insertion order with pairwise distinct keys, and a set its items; the distinctness is a field,
so no operation can break it.  `IndexMap.mem_entries` turns a lookup into membership, and every lookup law below is a
membership law read through it.
-/
namespace Relay

structure IndexMap (κ α : Type) where
  entries : List (κ × α)
  nodup : (entries.map Prod.fst).Nodup

namespace IndexMap

variable {κ α : Type} [DecidableEq κ]

def empty : IndexMap κ α := ⟨[], List.nodup_nil⟩

def get (m : IndexMap κ α) (k : κ) : Option α := (m.entries.find? (fun e => decide (e.1 = k))).map Prod.snd

def contains (m : IndexMap κ α) (k : κ) : Bool := (m.get k).isSome

def keys (m : IndexMap κ α) : List κ := m.entries.map Prod.fst

def values (m : IndexMap κ α) : List α := m.entries.map Prod.snd

def size (m : IndexMap κ α) : Nat := m.entries.length

/-- The entries with the value of `k` replaced in place, or `(k, v)` appended. -/
def insertList (k : κ) (v : α) : List (κ × α) → List (κ × α)
  | [] => [(k, v)]
  | e :: l => if e.1 = k then (k, v) :: l else e :: insertList k v l

/-- The entries without `k`, the last entry moved into its place. -/
def swapRemoveList (k : κ) : List (κ × α) → List (κ × α)
  | [] => []
  | e :: l =>
    if e.1 = k then (match l.getLast? with | none => [] | some z => z :: l.dropLast)
    else e :: swapRemoveList k l

theorem mem_entries_of_get {m : IndexMap κ α} {k : κ} {v : α} (h : m.get k = some v) : (k, v) ∈ m.entries := by
  unfold get at h
  obtain ⟨e, he, rfl⟩ := Option.map_eq_some_iff.1 h
  have hk : e.1 = k := by simpa using List.find?_some he
  exact hk ▸ List.mem_of_find?_eq_some he

omit [DecidableEq κ] in
theorem eq_of_mem_nodup : ∀ {l : List (κ × α)} {k : κ} {v w : α}, (l.map Prod.fst).Nodup →
    (k, v) ∈ l → (k, w) ∈ l → v = w
  | [], _, _, _, _, h, _ => by cases h
  | e :: l, k, v, w, hn, hv, hw => by
    rw [List.map_cons, List.nodup_cons] at hn
    have out : ∀ x : α, (k, x) ∈ l → e.1 ≠ k := fun x hx he =>
      hn.1 (List.mem_map.2 ⟨(k, x), hx, he.symm⟩)
    rcases List.mem_cons.1 hv with hv | hv <;> rcases List.mem_cons.1 hw with hw | hw
    · rw [← hv] at hw; exact (Prod.mk.inj hw).2.symm
    · exact absurd (by rw [← hv]) (out w hw)
    · exact absurd (by rw [← hw]) (out v hv)
    · exact eq_of_mem_nodup hn.2 hv hw

/-- **A lookup is membership of the entry.** -/
theorem mem_entries {m : IndexMap κ α} {k : κ} {v : α} : (k, v) ∈ m.entries ↔ m.get k = some v := by
  refine ⟨fun h => ?_, mem_entries_of_get⟩
  have hs : (m.entries.find? (fun e => decide (e.1 = k))).isSome := by
    rw [List.find?_isSome]; exact ⟨(k, v), h, by simp⟩
  obtain ⟨e, he⟩ := Option.isSome_iff_exists.1 hs
  have hg : m.get k = some e.2 := by rw [get, he]; rfl
  rw [hg, eq_of_mem_nodup m.nodup (mem_entries_of_get hg) h]

theorem get_eq_none {m : IndexMap κ α} {k : κ} : m.get k = none ↔ k ∉ m.keys := by
  rw [Option.eq_none_iff_forall_ne_some]
  constructor
  · intro h hk
    obtain ⟨e, he, rfl⟩ := List.mem_map.1 hk
    exact h e.2 (mem_entries.1 he)
  · intro h v hv
    exact h (List.mem_map.2 ⟨(k, v), mem_entries.2 hv, rfl⟩)

theorem mem_keys {m : IndexMap κ α} {k : κ} : k ∈ m.keys ↔ ∃ v, m.get k = some v := by
  rw [← Option.isSome_iff_exists, Option.isSome_iff_ne_none, ne_eq, get_eq_none, not_not]

theorem mem_values {m : IndexMap κ α} {v : α} : v ∈ m.values ↔ ∃ k, m.get k = some v := by
  constructor
  · intro h
    obtain ⟨e, he, rfl⟩ := List.mem_map.1 h
    exact ⟨e.1, mem_entries.1 he⟩
  · rintro ⟨k, h⟩
    exact List.mem_map.2 ⟨(k, v), mem_entries.2 h, rfl⟩

theorem contains_iff {m : IndexMap κ α} {k : κ} : m.contains k = true ↔ ∃ v, m.get k = some v :=
  Option.isSome_iff_exists

theorem contains_eq_false {m : IndexMap κ α} {k : κ} : m.contains k = false ↔ m.get k = none := by
  rw [contains, Option.isSome_eq_false_iff, Option.isNone_iff_eq_none]

/-- **Two maps whose entries agree at every key but `k` agree at every lookup but `k`.** -/
theorem get_congr {β : Type} {m : IndexMap κ α} {m' : IndexMap κ β} {k : κ} {f : α → β}
    (h : ∀ v', (k, v') ∈ m'.entries ↔ ∃ v, (k, v) ∈ m.entries ∧ f v = v') : m'.get k = (m.get k).map f := by
  apply Option.ext
  intro v'
  rw [← mem_entries, h]
  simp only [mem_entries, Option.map_eq_some_iff]

theorem mem_keys_insertList {k : κ} {v : α} {l : List (κ × α)} {x : κ} :
    x ∈ (insertList k v l).map Prod.fst ↔ x = k ∨ x ∈ l.map Prod.fst := by
  induction l with
  | nil => simp [insertList]
  | cons e l ih =>
    unfold insertList
    split
    · rename_i h; simp [h]
    · rw [List.map_cons, List.mem_cons, ih, List.map_cons, List.mem_cons]; tauto

theorem nodup_insertList {k : κ} {v : α} : ∀ {l : List (κ × α)}, (l.map Prod.fst).Nodup →
    ((insertList k v l).map Prod.fst).Nodup
  | [], _ => by simp [insertList]
  | e :: l, h => by
    rw [List.map_cons, List.nodup_cons] at h
    unfold insertList
    split
    · rename_i he
      rw [List.map_cons, List.nodup_cons]; exact ⟨he ▸ h.1, h.2⟩
    · rename_i he
      rw [List.map_cons, List.nodup_cons, mem_keys_insertList]
      exact ⟨fun hx => hx.elim he h.1, nodup_insertList h.2⟩

/-- A new key goes last. -/
theorem insertList_fresh {k : κ} {v : α} : ∀ {l : List (κ × α)}, k ∉ l.map Prod.fst → insertList k v l = l ++ [(k, v)]
  | [], _ => rfl
  | e :: l, h => by
    rw [List.map_cons, List.mem_cons, not_or] at h
    unfold insertList
    rw [if_neg (Ne.symm h.1), insertList_fresh h.2]
    rfl

theorem mem_insertList {k : κ} {v : α} : ∀ {l : List (κ × α)}, (l.map Prod.fst).Nodup → ∀ {x : κ} {w : α},
    ((x, w) ∈ insertList k v l ↔ if x = k then w = v else (x, w) ∈ l)
  | [], _, x, w => by by_cases h : x = k <;> simp [insertList, h]
  | e :: l, hn, x, w => by
    rw [List.map_cons, List.nodup_cons] at hn
    have out : ∀ y : α, (e.1, y) ∉ l := fun y hy => hn.1 (List.mem_map.2 ⟨_, hy, rfl⟩)
    unfold insertList
    split
    · rename_i he
      subst he
      by_cases hx : x = e.1
      · subst hx; simp [out]
      · simp only [List.mem_cons, Prod.mk.injEq, hx, false_and, false_or, if_false]
        exact ⟨Or.inr, fun h => h.resolve_left (fun h' => hx (by rw [← h']))⟩
    · rename_i he
      rw [List.mem_cons, mem_insertList hn.2, List.mem_cons]
      by_cases hx : x = k
      · simp only [hx, if_true, or_iff_right_iff_imp]
        intro h'; exact absurd (by rw [← h']) he
      · simp only [hx, if_false]

/-- Insert at the end, or replace the value in place. -/
def insert (m : IndexMap κ α) (k : κ) (v : α) : IndexMap κ α := ⟨insertList k v m.entries, nodup_insertList m.nodup⟩

theorem get_insert (m : IndexMap κ α) (k x : κ) (v : α) :
    (m.insert k v).get x = if x = k then some v else m.get x := by
  apply Option.ext
  intro w
  rw [← mem_entries]
  show (x, w) ∈ insertList k v m.entries ↔ _
  rw [mem_insertList m.nodup]
  split
  · exact ⟨fun h => by rw [h], fun h => by cases h; rfl⟩
  · exact mem_entries

@[simp] theorem get_insert_self (m : IndexMap κ α) (k : κ) (v : α) : (m.insert k v).get k = some v := by
  rw [get_insert, if_pos rfl]

theorem get_insert_ne (m : IndexMap κ α) {k x : κ} (v : α) (h : x ≠ k) : (m.insert k v).get x = m.get x := by
  rw [get_insert, if_neg h]

/-- Remove an entry, keeping the order of the others. -/
def shiftRemove (m : IndexMap κ α) (k : κ) : IndexMap κ α :=
  ⟨m.entries.filter (fun e => decide (e.1 ≠ k)), m.nodup.sublist (List.filter_sublist.map _)⟩

theorem get_shiftRemove (m : IndexMap κ α) (k x : κ) :
    (m.shiftRemove k).get x = if x = k then none else m.get x := by
  apply Option.ext
  intro w
  rw [← mem_entries]
  show (x, w) ∈ m.entries.filter _ ↔ _
  rw [List.mem_filter]
  split
  · rename_i h; simp [h]
  · rename_i h; simp [h, mem_entries]

theorem swapRemoveList_perm (k : κ) : ∀ (l : List (κ × α)), (l.map Prod.fst).Nodup →
    (swapRemoveList k l).Perm (l.filter (fun e => decide (e.1 ≠ k)))
  | [], _ => by simp [swapRemoveList]
  | e :: l, hn => by
    rw [List.map_cons, List.nodup_cons] at hn
    unfold swapRemoveList
    split
    · rename_i he
      have hl : l.filter (fun e => decide (e.1 ≠ k)) = l := List.filter_eq_self.2 (fun x hx => by
        simp only [ne_eq, decide_not, Bool.not_eq_eq_eq_not, Bool.not_true, decide_eq_false_iff_not]
        rintro rfl
        exact hn.1 (List.mem_map.2 ⟨x, hx, he.symm⟩))
      rw [List.filter_cons_of_neg (by simp [he]), hl]
      split
      · rename_i hz
        rw [List.getLast?_eq_none_iff.1 hz]
      · rename_i z hz
        obtain ⟨ys, rfl⟩ := List.getLast?_eq_some_iff.1 hz
        rw [List.dropLast_concat]
        exact (List.perm_append_singleton z ys).symm
    · rename_i he
      rw [List.filter_cons_of_pos (by simpa using he)]
      exact (swapRemoveList_perm k l hn.2).cons e

/-- Remove an entry, moving the last one into its place. -/
def swapRemove (m : IndexMap κ α) (k : κ) : IndexMap κ α :=
  ⟨swapRemoveList k m.entries,
    ((swapRemoveList_perm k m.entries m.nodup).map Prod.fst).nodup_iff.2 (m.shiftRemove k).nodup⟩

theorem get_swapRemove (m : IndexMap κ α) (k x : κ) :
    (m.swapRemove k).get x = if x = k then none else m.get x := by
  rw [← get_shiftRemove]
  apply Option.ext
  intro w
  rw [← mem_entries, ← mem_entries]
  exact (swapRemoveList_perm k m.entries m.nodup).mem_iff

/-- Apply `f` to every value. -/
def mapVals {β : Type} (m : IndexMap κ α) (f : κ → α → β) : IndexMap κ β :=
  ⟨m.entries.map (fun e => (e.1, f e.1 e.2)), by rw [List.map_map]; exact m.nodup⟩

theorem get_mapVals {β : Type} (m : IndexMap κ α) (f : κ → α → β) (k : κ) :
    (m.mapVals f).get k = (m.get k).map (f k) := by
  apply get_congr
  intro v'
  show (k, v') ∈ m.entries.map (fun e => (e.1, f e.1 e.2)) ↔ _
  simp only [List.mem_map, Prod.exists, Prod.mk.injEq]
  constructor
  · rintro ⟨a, b, hm, rfl, rfl⟩; exact ⟨b, hm, rfl⟩
  · rintro ⟨v, hm, rfl⟩; exact ⟨k, v, hm, rfl, rfl⟩

omit [DecidableEq κ] in
@[simp] theorem keys_mapVals {β : Type} (m : IndexMap κ α) (f : κ → α → β) : (m.mapVals f).keys = m.keys := by
  simp [keys, mapVals, Function.comp_def]

/-- Apply `f` to the value of one key, if it is there. -/
def modify (m : IndexMap κ α) (k : κ) (f : α → α) : IndexMap κ α :=
  m.mapVals (fun x v => if x = k then f v else v)

theorem get_modify (m : IndexMap κ α) (k x : κ) (f : α → α) :
    (m.modify k f).get x = if x = k then (m.get k).map f else m.get x := by
  rw [modify, get_mapVals]
  split
  · rename_i h; subst h; rfl
  · exact Option.map_id'

theorem get_modify_ne (m : IndexMap κ α) {k x : κ} (f : α → α) (h : x ≠ k) : (m.modify k f).get x = m.get x := by
  rw [get_modify, if_neg h]

@[simp] theorem keys_modify (m : IndexMap κ α) (k : κ) (f : α → α) : (m.modify k f).keys = m.keys :=
  keys_mapVals _ _

/-- Keep the entries that satisfy `p`, in order. -/
def retain (m : IndexMap κ α) (p : κ → α → Bool) : IndexMap κ α :=
  ⟨m.entries.filter (fun e => p e.1 e.2), m.nodup.sublist (List.filter_sublist.map _)⟩

theorem get_retain (m : IndexMap κ α) (p : κ → α → Bool) (k : κ) : (m.retain p).get k = (m.get k).filter (p k) := by
  apply Option.ext
  intro w
  rw [← mem_entries]
  show (k, w) ∈ m.entries.filter _ ↔ _
  rw [List.mem_filter, mem_entries, Option.filter_eq_some_iff]

omit [DecidableEq κ] in
theorem ext_entries {m m' : IndexMap κ α} (h : m.entries = m'.entries) : m = m' := by
  cases m
  cases m'
  cases h
  rfl

omit [DecidableEq κ] in
theorem retain_true (m : IndexMap κ α) : m.retain (fun _ _ => true) = m :=
  ext_entries (List.filter_eq_self.2 (fun _ _ => rfl))

omit [DecidableEq κ] in
theorem retain_retain (m : IndexMap κ α) (p q : κ → α → Bool) : (m.retain p).retain q = m.retain (fun k v => p k v && q k v) :=
  ext_entries (by simp only [retain, List.filter_filter, Bool.and_comm])

theorem shiftRemove_eq_retain (m : IndexMap κ α) (k : κ) : m.shiftRemove k = m.retain (fun x _ => !decide (x ∈ [k])) :=
  ext_entries (by simp only [shiftRemove, retain, List.mem_singleton, ne_eq, decide_not])

theorem shiftRemove_of_get_none {m : IndexMap κ α} {k : κ} (h : m.get k = none) : m.shiftRemove k = m :=
  ext_entries (List.filter_eq_self.2 (fun _ he => decide_eq_true (fun hk =>
    get_eq_none.1 h (hk ▸ List.mem_map_of_mem he))))

/-- An entry and the others. -/
theorem perm_shiftRemove {m : IndexMap κ α} {k : κ} {v : α} (h : m.get k = some v) :
    m.entries.Perm ((k, v) :: (m.shiftRemove k).entries) := by
  have hnodup : m.entries.Nodup := m.nodup.of_map
  refine (List.perm_ext_iff_of_nodup hnodup (List.nodup_cons.2 ⟨fun hm => ?_, hnodup.filter _⟩)).2 (fun e => ?_)
  · exact of_decide_eq_true (List.mem_filter.1 hm).2 rfl
  · constructor
    · intro he
      by_cases hk : e.1 = k
      · rw [← hk, mem_entries.1 he] at h
        exact List.mem_cons.2 (.inl (Prod.ext hk (Option.some.inj h)))
      · exact List.mem_cons_of_mem _ (List.mem_filter.2 ⟨he, decide_eq_true hk⟩)
    · intro he
      rcases List.mem_cons.1 he with rfl | he
      · exact mem_entries.2 h
      · exact (List.mem_filter.1 he).1

theorem get_insert_eq (m : IndexMap κ α) (k : κ) (v : α) : (m.insert k v).get = Function.update m.get k (some v) := by
  funext x
  rw [get_insert, Function.update_apply]

theorem get_shiftRemove_eq (m : IndexMap κ α) (k : κ) : (m.shiftRemove k).get = Function.update m.get k none := by
  funext x
  rw [get_shiftRemove, Function.update_apply]

theorem get_swapRemove_eq (m : IndexMap κ α) (k : κ) : (m.swapRemove k).get = Function.update m.get k none := by
  funext x
  rw [get_swapRemove, Function.update_apply]

theorem get_mapVals_eq {β : Type} (m : IndexMap κ α) (f : κ → α → β) :
    (m.mapVals f).get = fun x => (m.get x).map (f x) := funext (get_mapVals m f)

/-- Drop the first entry. -/
def dropFirst (m : IndexMap κ α) : IndexMap κ α :=
  ⟨m.entries.tail, m.nodup.sublist ((List.tail_sublist _).map _)⟩

@[simp] theorem get_empty (k : κ) : (empty : IndexMap κ α).get k = none := rfl

theorem insertList_of_mem {k : κ} {v : α} : ∀ {l : List (κ × α)}, (l.map Prod.fst).Nodup → (k, v) ∈ l →
    insertList k v l = l
  | [], _, h => by cases h
  | e :: l, hn, h => by
    unfold insertList
    split
    · rename_i he
      rcases List.mem_cons.1 h with h | h
      · rw [h]
      · exact absurd (List.mem_map_of_mem h) (he ▸ (List.nodup_cons.1 hn).1)
    · rename_i he
      rcases List.mem_cons.1 h with h | h
      · exact absurd (congrArg Prod.fst h).symm he
      · rw [insertList_of_mem (List.nodup_cons.1 hn).2 h]

theorem insert_of_get {m : IndexMap κ α} {k : κ} {v : α} (h : m.get k = some v) : m.insert k v = m :=
  ext_entries (insertList_of_mem m.nodup (mem_entries.2 h))

theorem retain_eq_self {m : IndexMap κ α} {p : κ → α → Bool} : m.retain p = m ↔ ∀ k v, m.get k = some v → p k v = true := by
  constructor
  · intro h k v hv
    rw [← h, get_retain, Option.filter_eq_some_iff] at hv
    exact hv.2
  · exact fun h => ext_entries (List.filter_eq_self.2 (fun e he => h e.1 e.2 (mem_entries.1 he)))

theorem get_of_dropFirst {m : IndexMap κ α} {k : κ} {v : α} (h : m.dropFirst.get k = some v) : m.get k = some v :=
  mem_entries.1 (List.mem_of_mem_tail (mem_entries.2 h))

end IndexMap

structure IndexSet (α : Type) where
  items : List α
  nodup : items.Nodup
  deriving DecidableEq

namespace IndexSet

variable {α : Type} [DecidableEq α]

def empty : IndexSet α := ⟨[], List.nodup_nil⟩

def contains (s : IndexSet α) (a : α) : Bool := decide (a ∈ s.items)

def size (s : IndexSet α) : Nat := s.items.length

def isEmpty (s : IndexSet α) : Bool := s.items.isEmpty

def first (s : IndexSet α) : Option α := s.items.head?

def insert (s : IndexSet α) (a : α) : IndexSet α :=
  if h : a ∈ s.items then s else
    ⟨s.items ++ [a], List.nodup_append.2 ⟨s.nodup, List.nodup_singleton a, by simp; rintro b hb rfl; exact h hb⟩⟩

def shiftRemove (s : IndexSet α) (a : α) : IndexSet α :=
  ⟨s.items.filter (fun b => decide (b ≠ a)), s.nodup.filter _⟩

def dropFirst (s : IndexSet α) : IndexSet α := ⟨s.items.tail, s.nodup.sublist (List.tail_sublist _)⟩

instance : Membership α (IndexSet α) := ⟨fun s a => a ∈ s.items⟩

instance (s : IndexSet α) (a : α) : Decidable (a ∈ s) := inferInstanceAs (Decidable (a ∈ s.items))

omit [DecidableEq α] in
theorem mem_items {s : IndexSet α} {a : α} : a ∈ s.items ↔ a ∈ s := Iff.rfl

@[simp] theorem contains_iff {s : IndexSet α} {a : α} : s.contains a = true ↔ a ∈ s := by
  rw [contains, decide_eq_true_iff]; rfl

omit [DecidableEq α] in
@[simp] theorem mem_empty {a : α} : ¬ a ∈ (empty : IndexSet α) := by
  show a ∉ ([] : List α); exact List.not_mem_nil

@[simp] theorem mem_insert {s : IndexSet α} {a b : α} : b ∈ s.insert a ↔ b = a ∨ b ∈ s := by
  unfold insert
  split
  · rename_i h
    exact ⟨Or.inr, fun hb => hb.elim (fun hb => hb ▸ h) id⟩
  · show b ∈ s.items ++ [a] ↔ b = a ∨ b ∈ s.items
    rw [List.mem_append, List.mem_singleton, or_comm]

@[simp] theorem mem_shiftRemove {s : IndexSet α} {a b : α} : b ∈ s.shiftRemove a ↔ b ∈ s ∧ b ≠ a := by
  show b ∈ s.items.filter _ ↔ b ∈ s.items ∧ _
  rw [List.mem_filter, decide_eq_true_iff]

omit [DecidableEq α] in
theorem isEmpty_iff {s : IndexSet α} : s.isEmpty = true ↔ ∀ a, ¬ a ∈ s := by
  rw [isEmpty, List.isEmpty_iff, List.eq_nil_iff_forall_not_mem]; rfl

omit [DecidableEq α] in
theorem isEmpty_eq_false {s : IndexSet α} : s.isEmpty = false ↔ ∃ a, a ∈ s := by
  rw [← Bool.not_eq_true, isEmpty_iff, not_forall]; simp only [not_not]

omit [DecidableEq α] in
theorem first_eq_none {s : IndexSet α} : s.first = none ↔ s.isEmpty = true := by
  rw [first, List.head?_eq_none_iff, isEmpty, List.isEmpty_iff]

omit [DecidableEq α] in
theorem mem_of_first {s : IndexSet α} {a : α} (h : s.first = some a) : a ∈ s := List.mem_of_mem_head? h

theorem size_insert_le (s : IndexSet α) (a : α) : (s.insert a).size ≤ s.size + 1 := by
  unfold insert size
  split
  · exact Nat.le_succ _
  · show (s.items ++ [a]).length ≤ _
    exact Nat.le_of_eq (List.length_append ..)

theorem size_shiftRemove_le (s : IndexSet α) (a : α) : (s.shiftRemove a).size ≤ s.size := List.length_filter_le ..

omit [DecidableEq α] in
theorem size_pos {s : IndexSet α} {a : α} (h : a ∈ s) : 1 ≤ s.size := List.length_pos_of_mem h

end IndexSet
end Relay
