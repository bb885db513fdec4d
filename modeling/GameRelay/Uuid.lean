import Mathlib
/-!
# Uuid — sixteen bytes and their hyphenated text

`uuidText` writes sixteen bytes in canonical lower-case text, `parseUuid` reads either letter case back, and `isUuid` is
the pattern the protocol accepts (versions 1 to 8, RFC variant).  A drawn identifier is a `UuidV4`: bytes that carry
their version and variant, so its text always matches the pattern.
-/
namespace Relay

abbrev Bytes := List UInt8

def hexVal (c : Char) : Option Nat :=
  if '0' ≤ c ∧ c ≤ '9' then some (c.toNat - 48)
  else if 'a' ≤ c ∧ c ≤ 'f' then some (c.toNat - 87)
  else if 'A' ≤ c ∧ c ≤ 'F' then some (c.toNat - 55)
  else none

def isHex (c : Char) : Bool := (hexVal c).isSome

def hexPair (b : UInt8) : List Char := [Nat.digitChar (b.toNat / 16), Nat.digitChar (b.toNat % 16)]

/-- Hyphens after the 8th, 12th, 16th and 20th of 32 digits. -/
def hyphenate (ds : List Char) : List Char :=
  ds.take 8 ++ '-' :: (ds.drop 8).take 4 ++ '-' :: (ds.drop 12).take 4 ++ '-' :: (ds.drop 16).take 4
    ++ '-' :: ds.drop 20

def uuidText (b : Bytes) : String := String.ofList (hyphenate (b.flatMap hexPair))

def unhex : List Char → Option Bytes
  | [] => some []
  | [_] => none
  | c :: d :: cs =>
    match hexVal c, hexVal d, unhex cs with
    | some h, some l, some b => some (UInt8.ofNat (16 * h + l) :: b)
    | _, _, _ => none

def hyphenAt : List Nat := [8, 13, 18, 23]

/-- `Uuid::parse_str` on hyphenated text, in either letter case. -/
def parseUuid (s : String) : Option Bytes :=
  let cs := s.toList
  if cs.length = 36 ∧ hyphenAt.all (fun i => decide (cs[i]? = some '-')) = true then
    match unhex (cs.filter (fun c => decide (c ≠ '-'))) with
    | some b => if b.length = 16 then some b else none
    | none => none
  else none

/-- What the character at each place of an accepted identifier may be. -/
def uuidCharOk (c : Char) (i : Nat) : Bool :=
  if i ∈ hyphenAt then decide (c = '-')
  else if i = 14 then decide ('1' ≤ c ∧ c ≤ '8')
  else if i = 19 then decide (c ∈ ['8', '9', 'a', 'b', 'A', 'B'])
  else isHex c

/-- The pattern of an identifier: hyphenated hexadecimal, version digit 1 to 8, variant digit 8 to b. -/
def isUuid (s : String) : Bool :=
  decide (s.toList.length = 36) && s.toList.zipIdx.all (fun p => uuidCharOk p.1 p.2)

def lowerText (s : String) : String := String.ofList (s.toList.map Char.toLower)

theorem toLower_idem (c : Char) : c.toLower.toLower = c.toLower := by
  unfold Char.toLower
  split
  · rename_i h
    rw [dif_neg]
    rintro ⟨-, h'⟩
    have h₁ := UInt32.le_iff_toNat_le.1 h.1
    have h₂ := UInt32.le_iff_toNat_le.1 h.2
    have h₃ := UInt32.le_iff_toNat_le.1 h'
    simp at h₁ h₂ h₃
    omega
  · rfl

theorem lowerText_idem (s : String) : lowerText (lowerText s) = lowerText s := by
  unfold lowerText
  rw [String.toList_ofList, List.map_map]
  congr 1
  exact List.map_congr_left (fun c _ => toLower_idem c)

/-- The bytes of a random identifier. -/
structure UuidV4 where
  bytes : Bytes
  length_eq : bytes.length = 16
  version : (bytes[6]?.getD 0).toNat / 16 = 4
  variant : (bytes[8]?.getD 0).toNat / 64 = 2

def UuidV4.text (u : UuidV4) : String := uuidText u.bytes

theorem digitChar_facts : ∀ n < 16, hexVal (Nat.digitChar n) = some n ∧ Nat.digitChar n ≠ '-' ∧
    (Nat.digitChar n).toLower = Nat.digitChar n := by decide

theorem toNat_lt_256 (b : UInt8) : b.toNat < 256 := b.toNat_lt

theorem hexPair_facts (b : UInt8) :
    hexVal (Nat.digitChar (b.toNat / 16)) = some (b.toNat / 16) ∧
      hexVal (Nat.digitChar (b.toNat % 16)) = some (b.toNat % 16) := by
  have := toNat_lt_256 b
  exact ⟨(digitChar_facts _ (by omega)).1, (digitChar_facts _ (by omega)).1⟩

theorem unhex_flatMap_hexPair : ∀ b : Bytes, unhex (b.flatMap hexPair) = some b
  | [] => rfl
  | x :: b => by
    have h := hexPair_facts x
    have hx : UInt8.ofNat (16 * (x.toNat / 16) + x.toNat % 16) = x := by
      rw [Nat.div_add_mod]; exact UInt8.ofNat_toNat
    rw [List.flatMap_cons, hexPair, List.cons_append, List.cons_append, List.nil_append, unhex, h.1, h.2,
      unhex_flatMap_hexPair b]
    simp only [hx]

theorem mem_flatMap_hexPair {b : Bytes} {c : Char} (h : c ∈ b.flatMap hexPair) :
    ∃ n < 16, c = Nat.digitChar n := by
  obtain ⟨x, -, hc⟩ := List.mem_flatMap.1 h
  have := toNat_lt_256 x
  rcases List.mem_cons.1 hc with rfl | hc
  · exact ⟨_, by omega, rfl⟩
  · rcases List.mem_cons.1 hc with rfl | hc
    · exact ⟨_, by omega, rfl⟩
    · cases hc

theorem length_flatMap_hexPair (b : Bytes) : (b.flatMap hexPair).length = 2 * b.length := by
  induction b with
  | nil => rfl
  | cons x b ih => rw [List.flatMap_cons, List.length_append, ih, List.length_cons]; simp [hexPair]; omega

theorem length_hyphenate {ds : List Char} (h : ds.length = 32) : (hyphenate ds).length = 36 := by
  simp [hyphenate, h]

theorem getElem?_hyphenate {ds : List Char} (h : ds.length = 32) : ∀ i ∈ hyphenAt, (hyphenate ds)[i]? = some '-' := by
  intro i hi
  simp only [hyphenAt, List.mem_cons, List.not_mem_nil, or_false] at hi
  rcases hi with rfl | rfl | rfl | rfl <;> simp [hyphenate, h]

theorem filter_hyphenate {ds : List Char} (h : ∀ c ∈ ds, c ≠ '-') :
    (hyphenate ds).filter (fun c => decide (c ≠ '-')) = ds := by
  have key : ∀ l : List Char, l ⊆ ds → l.filter (fun c => decide (c ≠ '-')) = l := fun l hl =>
    List.filter_eq_self.2 (fun c hc => by simpa using h c (hl hc))
  unfold hyphenate
  simp only [List.filter_append, List.filter_cons, ne_eq, not_true_eq_false, decide_false, Bool.false_eq_true,
    if_false]
  rw [key _ (List.take_subset _ _), key _ (List.Subset.trans (List.take_subset _ _) (List.drop_subset _ _)),
    key _ (List.Subset.trans (List.take_subset _ _) (List.drop_subset _ _)),
    key _ (List.Subset.trans (List.take_subset _ _) (List.drop_subset _ _)), key _ (List.drop_subset _ _)]
  conv => rhs; rw [← List.take_append_drop 8 ds, ← List.take_append_drop 4 (ds.drop 8),
    ← List.take_append_drop 4 ((ds.drop 8).drop 4), ← List.take_append_drop 4 (((ds.drop 8).drop 4).drop 4)]
  simp only [List.drop_drop, List.append_assoc]

theorem toList_uuidText (b : Bytes) : (uuidText b).toList = hyphenate (b.flatMap hexPair) := String.toList_ofList

/-- **Parsing the canonical text gives the bytes back.** -/
theorem parseUuid_uuidText {b : Bytes} (h : b.length = 16) : parseUuid (uuidText b) = some b := by
  have hd : (b.flatMap hexPair).length = 32 := by rw [length_flatMap_hexPair, h]
  have hne : ∀ c ∈ b.flatMap hexPair, c ≠ '-' := fun c hc => by
    obtain ⟨n, hn, rfl⟩ := mem_flatMap_hexPair hc
    exact (digitChar_facts n hn).2.1
  have hy : hyphenAt.all (fun i => decide ((hyphenate (b.flatMap hexPair))[i]? = some '-')) = true :=
    List.all_eq_true.2 (fun i hi => by simpa using getElem?_hyphenate hd i hi)
  simp only [parseUuid, toList_uuidText, length_hyphenate hd, hy, and_self, if_true, filter_hyphenate hne,
    unhex_flatMap_hexPair, h]

theorem unhex_isSome : ∀ (n : Nat) (cs : List Char), cs.length = 2 * n → (∀ c ∈ cs, isHex c = true) →
    ∃ b, unhex cs = some b ∧ b.length = n
  | 0, cs, hl, _ => by
    rw [List.eq_nil_of_length_eq_zero hl]
    exact ⟨[], rfl, rfl⟩
  | n + 1, cs, hl, hx => by
    match cs, hl with
    | c :: d :: cs, hl =>
      have hlen : cs.length = 2 * n := by simp only [List.length_cons] at hl; omega
      obtain ⟨b, hb, hbl⟩ := unhex_isSome n cs hlen (fun x hm => hx x (List.mem_cons_of_mem _ (List.mem_cons_of_mem _ hm)))
      obtain ⟨h, hc⟩ := Option.isSome_iff_exists.1 (hx c (List.mem_cons_self ..))
      obtain ⟨l, hd⟩ := Option.isSome_iff_exists.1 (hx d (List.mem_cons_of_mem _ (List.mem_cons_self ..)))
      exact ⟨UInt8.ofNat (16 * h + l) :: b, by rw [unhex, hc, hd, hb], by rw [List.length_cons, hbl]⟩

/-- What is no hyphen's place holds a hexadecimal digit. -/
theorem isHex_of_ok {c : Char} {i : Nat} (h : uuidCharOk c i = true) (hi : i ∉ hyphenAt) : isHex c = true := by
  unfold uuidCharOk at h
  rw [if_neg hi] at h
  split at h
  · have hc : '1' ≤ c ∧ c ≤ '8' := of_decide_eq_true h
    unfold isHex hexVal
    rw [if_pos ⟨Char.le_trans (by decide) hc.1, Char.le_trans hc.2 (by decide)⟩]
    rfl
  · split at h
    · have hc : c ∈ ['8', '9', 'a', 'b', 'A', 'B'] := of_decide_eq_true h
      simp only [List.mem_cons, List.not_mem_nil, or_false] at hc
      rcases hc with rfl | rfl | rfl | rfl | rfl | rfl <;> decide
    · exact h

/-- **What matches the pattern parses.** -/
theorem parseUuid_isSome {s : String} (h : isUuid s = true) : (parseUuid s).isSome := by
  unfold isUuid at h
  rw [Bool.and_eq_true, decide_eq_true_eq, List.all_eq_true] at h
  obtain ⟨hlen, hall⟩ := h
  unfold parseUuid
  generalize s.toList = cs at hlen hall
  have hok : ∀ i c, cs[i]? = some c → uuidCharOk c i = true := fun i c hc =>
    hall (c, i) (List.mem_zipIdx_iff_getElem?.2 hc)
  have hdash : ∀ c i, (c, i) ∈ cs.zipIdx → (c = '-' ↔ i ∈ hyphenAt) := by
    intro c i hci
    have hc := hall (c, i) hci
    constructor
    · intro he
      by_contra hi
      have hx : isHex c = true := isHex_of_ok hc hi
      rw [he] at hx
      exact absurd hx (by decide)
    · intro hi
      unfold uuidCharOk at hc
      rw [if_pos hi] at hc
      exact of_decide_eq_true hc
  have hhyphens : hyphenAt.all (fun i => decide (cs[i]? = some '-')) = true := by
    rw [List.all_eq_true]
    intro i hi
    have hlt : i < cs.length := by
      rw [hlen]
      simp only [hyphenAt, List.mem_cons, List.not_mem_nil, or_false] at hi
      omega
    have hget : cs[i]? = some cs[i] := List.getElem?_eq_getElem hlt
    exact decide_eq_true (hget.trans (congrArg some ((hdash _ i (List.mem_zipIdx_iff_getElem?.2 hget)).2 hi)))
  have hcount : (cs.filter (fun c => decide (c ≠ '-'))).length = 32 := by
    have hfilter : cs.filter (fun c => decide (c ≠ '-')) =
        (cs.zipIdx.filter (fun p => decide (p.2 ∉ hyphenAt))).map Prod.fst := by
      conv => lhs; rw [← List.zipIdx_map_fst 0 cs]
      rw [List.filter_map]
      refine congrArg _ (List.filter_congr (fun p hp => ?_))
      exact decide_eq_decide.2 (not_congr (hdash p.1 p.2 hp))
    have hplaces : (cs.zipIdx.filter (fun p => decide (p.2 ∉ hyphenAt))).map Prod.snd =
        (List.range' 0 36).filter (fun i => decide (i ∉ hyphenAt)) := by
      rw [← hlen, ← List.zipIdx_map_snd 0 cs, List.filter_map]
      rfl
    rw [hfilter, List.length_map, ← List.length_map (f := Prod.snd), hplaces]
    decide
  have hhex : ∀ c ∈ cs.filter (fun c => decide (c ≠ '-')), isHex c = true := by
    intro c hc
    obtain ⟨hmem, hne⟩ := List.mem_filter.1 hc
    obtain ⟨i, hi⟩ := List.mem_iff_getElem?.1 hmem
    exact isHex_of_ok (hok i c hi) (fun hy =>
      of_decide_eq_true hne ((hdash c i (List.mem_zipIdx_iff_getElem?.2 hi)).2 hy))
  obtain ⟨b, hb, hbl⟩ := unhex_isSome 16 _ hcount hhex
  simp only [hlen, hhyphens, and_self, if_true, hb, hbl, Option.isSome_some]

theorem length_parseUuid {s : String} {b : Bytes} (h : parseUuid s = some b) : b.length = 16 := by
  unfold parseUuid at h
  dsimp only at h
  repeat' split at h
  all_goals cases h
  assumption

theorem mem_hyphenate {ds : List Char} {c : Char} (h : c ∈ hyphenate ds) : c = '-' ∨ c ∈ ds := by
  unfold hyphenate at h
  simp only [List.mem_append, List.mem_cons] at h
  rcases h with (((h | h | h) | h | h) | h | h) | h | h
  all_goals first
    | exact .inl h
    | exact .inr (List.take_subset _ _ h)
    | exact .inr (List.drop_subset _ _ (List.take_subset _ _ h))
    | exact .inr (List.drop_subset _ _ h)

/-- Every character of canonical text is a hyphen or a lower-case digit. -/
theorem mem_uuidText {b : Bytes} {c : Char} (h : c ∈ (uuidText b).toList) : c = '-' ∨ ∃ n < 16, c = Nat.digitChar n := by
  rw [toList_uuidText] at h
  exact (mem_hyphenate h).imp id mem_flatMap_hexPair

theorem lowerText_uuidText (b : Bytes) : lowerText (uuidText b) = uuidText b := by
  have : (uuidText b).toList.map Char.toLower = (uuidText b).toList := by
    conv => rhs; rw [← List.map_id (uuidText b).toList]
    refine List.map_congr_left (fun c hc => ?_)
    rcases mem_uuidText hc with rfl | ⟨n, hn, rfl⟩
    · decide
    · exact (digitChar_facts n hn).2.2
  rw [lowerText, this, String.ofList_toList]

theorem length_uuidText {b : Bytes} (h : b.length = 16) : (uuidText b).toList.length = 36 := by
  rw [toList_uuidText, length_hyphenate (by rw [length_flatMap_hexPair, h])]

theorem variant_digit {n : Nat} (h : n / 64 = 2) : Nat.digitChar (n / 16) ∈ ['8', '9', 'a', 'b', 'A', 'B'] := by
  obtain h | h | h | h : n / 16 = 8 ∨ n / 16 = 9 ∨ n / 16 = 10 ∨ n / 16 = 11 := by omega
  all_goals rw [h]; decide

theorem isHex_digitChar {n : Nat} (h : n < 16) : isHex (Nat.digitChar n) = true := by
  rw [isHex, (digitChar_facts n h).1]; rfl

/-- **The text of a drawn identifier matches the pattern.** -/
theorem UuidV4.isUuid_text (u : UuidV4) : isUuid u.text = true := by
  obtain ⟨b, hl, hv, hr⟩ := u
  simp only [isUuid, UuidV4.text, length_uuidText hl, decide_true, Bool.true_and]
  rw [toList_uuidText]
  match b, hl with
  | [b0, b1, b2, b3, b4, b5, b6, b7, b8, b9, b10, b11, b12, b13, b14, b15], _ =>
    simp only [List.getElem?_cons_succ, List.getElem?_cons_zero, Option.getD_some] at hv hr
    have hi : ∀ x : UInt8, isHex (Nat.digitChar (x.toNat / 16)) = true := fun x =>
      isHex_digitChar (by have := toNat_lt_256 x; omega)
    have lo : ∀ x : UInt8, isHex (Nat.digitChar (x.toNat % 16)) = true := fun x =>
      isHex_digitChar (Nat.mod_lt _ (by decide))
    have h8 := variant_digit hr
    have hd4 : Nat.digitChar 4 = '4' := rfl
    simp [hyphenate, hexPair, uuidCharOk, hyphenAt, List.zipIdx_cons, hi, lo, hv, hd4]
    simpa using h8

end Relay
