import Mathlib
import GameRelay.Fanout
/-!
# Pages — the room listing, page by page

`listed` is sorted strictly by identifier, and a page is a prefix of it: whole rooms, as many as fit, with the last one
kept as the cursor, or null when none is left out.  A scan follows the cursors while the rooms change between its pages;
the identifiers it returns increase strictly, so it ends, and a room that is there and visible throughout is returned once.
-/
namespace Relay

/-- The room is shown to `p` in listings. -/
def Room.Visible (r : Room) (p : String) : Prop := r.started = false ∨ p ∈ r.active ∨ r.rejoin p = true

variable [Extern]

/-! Sizes. -/

omit [Extern] in
theorem length_le_escapeSize : ∀ cs : List Char, cs.length ≤ Json.escapeSize cs
  | [] => Nat.le_refl 0
  | c :: cs => by
    have hone : 1 ≤ (Json.escapeChar c).utf8ByteSize := by
      unfold Json.escapeChar
      repeat' split
      all_goals first
        | decide
        | (rw [String.utf8ByteSize_append]; exact Nat.le_add_right_of_le (by decide))
        | (rw [String.utf8ByteSize_singleton]; exact Char.utf8Size_pos c)
    have := length_le_escapeSize cs
    rw [List.length_cons, Json.escapeSize]
    omega

/-- A page without a cursor is shorter than the page with one. -/
theorem size_onGetRooms_null (data : List Value) {id : String} (h : 2 ≤ id.toList.length) :
    Protocol.size (Server.onGetRooms data .null) ≤ Protocol.size (Server.onGetRooms data (.str id)) := by
  have hle := length_le_escapeSize id.toList
  rw [Protocol.size_eq, Protocol.size_eq]
  simp only [Server.onGetRooms, Json.textSize, Json.fieldsSize, Json.quoteSize]
  omega

omit [Extern] in
theorem isUuid_length {s : String} (h : isUuid s = true) : s.toList.length = 36 := by
  unfold isUuid at h
  rw [Bool.and_eq_true, decide_eq_true_iff] at h
  exact h.1

omit [Extern] in
/-- There are finitely many identifiers. -/
theorem finite_uuids : {s : String | isUuid s = true}.Finite := by
  have : Finite Char := Finite.of_injective (fun c : Char => c.val.toBitVec.toFin) (fun a b hab => by
    exact Char.ext (UInt32.toBitVec_inj.1 (BitVec.toFin_inj.1 hab)))
  have hlists := (List.finite_length_eq Char 36).image String.ofList
  refine hlists.subset (fun s hs => ⟨s.toList, isUuid_length hs, String.ofList_toList⟩)

namespace Server

/-! One page. -/

/-- The page a request gets: the rooms that fit, and the cursor. -/
def pageOf (s : Server) (p : String) (d : Value) : Option (List Value × Value) :=
  s.pageLoop (s.listed p (lowerText (((d.idx "after").asStr).getD ""))) [] .null

theorem getRooms_eq (s : Server) (p : String) (d : Value) : s.getRooms p d = match s.pageOf p d with
    | none => s.err p "response_too_large"
    | some (data, cursor) => s.send p (onGetRooms data cursor) := rfl

/-- The cursor once `k` of the rooms were taken. -/
def cursorOf : List Room → Nat → Value → Value
  | r :: rs, k + 1, _ => cursorOf rs k (if rs.isEmpty then .null else .str r.id)
  | _, _, cursor => cursor

omit [Extern] in
theorem cursorOf_zero (rs : List Room) (cursor : Value) : cursorOf rs 0 cursor = cursor := by cases rs <;> rfl

omit [Extern] in
/-- After some rooms the cursor is the last of them, or null when it is the last of all. -/
theorem cursorOf_succ : ∀ (rs : List Room) (k : Nat) (cursor : Value), k < rs.length →
    (k + 1 = rs.length ∧ cursorOf rs (k + 1) cursor = .null) ∨
      ∃ r, (rs.take (k + 1)).getLast? = some r ∧ cursorOf rs (k + 1) cursor = .str r.id
  | [], _, _, h => absurd h (Nat.not_lt_zero _)
  | r :: rs, 0, cursor, _ => by
    rw [cursorOf, cursorOf_zero]
    cases rs with
    | nil => exact .inl ⟨rfl, rfl⟩
    | cons r' rs => exact .inr ⟨r, rfl, rfl⟩
  | r :: rs, k + 1, cursor, h => by
    have hk : k < rs.length := Nat.lt_of_succ_lt_succ h
    rw [cursorOf]
    rcases cursorOf_succ rs k (if rs.isEmpty then .null else .str r.id) hk with ⟨hlen, hc⟩ | ⟨r', hlast, hc⟩
    · exact .inl ⟨by rw [List.length_cons, hlen], hc⟩
    · refine .inr ⟨r', ?_, hc⟩
      rw [List.take_succ_cons, List.getLast?_cons, hlast]
      rfl

/-- **The loop takes a prefix of the rooms**: at least one more when it has none yet and the first fits, and what it has
taken fits with the cursor it leaves. -/
theorem pageLoop_spec (s : Server) : ∀ (rs : List Room) (data : List Value) (cursor : Value),
    (data = [] → ∀ r rest, rs = r :: rest →
      (s.encoded (onGetRooms [s.dto r] (if rest.isEmpty then .null else .str r.id))).isSome) →
    ∃ k, k ≤ rs.length ∧ s.pageLoop rs data cursor = some (data ++ (rs.take k).map s.dto, cursorOf rs k cursor) ∧
      (data = [] → rs ≠ [] → 0 < k) ∧
      (0 < k → (s.encoded (onGetRooms (data ++ (rs.take k).map s.dto) (cursorOf rs k cursor))).isSome)
  | [], data, cursor, _ =>
    ⟨0, Nat.le_refl 0, by rw [pageLoop, List.take_nil, List.map_nil, List.append_nil]; rfl, fun _ h => absurd rfl h,
      fun h => absurd h (Nat.lt_irrefl 0)⟩
  | r :: rs, data, cursor, hfirst => by
    unfold pageLoop
    dsimp only
    cases he : s.encoded (onGetRooms (data ++ [s.dto r]) (if rs.isEmpty then .null else .str r.id)) with
    | none =>
      dsimp only
      cases data with
      | nil =>
        have := hfirst rfl r rs rfl
        rw [List.nil_append] at he
        rw [he] at this
        cases this
      | cons v vs =>
        exact ⟨0, Nat.zero_le _, by rw [List.take_zero, List.map_nil, List.append_nil, cursorOf_zero]; rfl,
          fun h => absurd h (List.cons_ne_nil _ _), fun h => absurd h (Nat.lt_irrefl 0)⟩
    | some m =>
      dsimp only
      obtain ⟨k, hk, hloop, -, hfits⟩ := pageLoop_spec s rs (data ++ [s.dto r]) (if rs.isEmpty then .null else .str r.id)
        (fun h => absurd h (List.append_ne_nil_of_right_ne_nil _ (List.cons_ne_nil _ _)))
      rw [List.append_assoc] at hloop hfits
      refine ⟨k + 1, Nat.succ_le_succ hk, ?_, fun _ _ => Nat.succ_pos k, fun _ => ?_⟩
      · rw [hloop, List.take_succ_cons, List.map_cons]
        rfl
      · rw [List.take_succ_cons, List.map_cons, cursorOf]
        cases k with
        | zero =>
          rw [List.take_zero, List.map_nil, cursorOf_zero, he]
          rfl
        | succ k => exact hfits (Nat.succ_pos k)

/-- The rooms of a server as a reader's listing finds them: under their identifiers, which are lower-case, each short
enough for a page of its own. -/
structure Listable (s : Server) (p : String) : Prop where
  keyed : ∀ {id r}, s.rooms.get id = some r → r.id = id
  uuid : ∀ {id r}, s.rooms.get id = some r → isUuid id = true ∧ lowerText id = id
  fits : ∀ {id r}, s.rooms.get id = some r → r.Visible p → (s.encoded (onGetRooms [s.dto r] (.str r.id))).isSome

omit [Extern] in
theorem mem_listed {s : Server} {p after : String} {r : Room} :
    r ∈ s.listed p after ↔ (∃ id, s.rooms.get id = some r) ∧ after < r.id ∧ r.Visible p := by
  unfold listed
  rw [List.mem_insertionSort, List.mem_filter, IndexMap.mem_values, Bool.and_eq_true, decide_eq_true_iff]
  refine and_congr_right (fun _ => and_congr_right (fun _ => ?_))
  unfold Room.Visible
  rw [Bool.or_eq_true, Bool.or_eq_true, Bool.not_eq_true', IndexSet.contains_iff, or_assoc]

omit [Extern] in
/-- **The listing is sorted strictly by identifier.** -/
theorem listed_sorted {s : Server} {p : String} (hk : ∀ {id r}, s.rooms.get id = some r → r.id = id) (after : String) :
    (s.listed p after).Pairwise (fun a b => a.id < b.id) := by
  have hnodup : (s.listed p after).Pairwise (fun a b => a.id ≠ b.id) := by
    unfold listed
    refine (List.perm_insertionSort _ _).pairwise_iff (fun h => Ne.symm h) |>.2 (List.Pairwise.filter _ ?_)
    -- rooms lie under different keys, which are their identifiers
    have hkeys : s.rooms.entries.Pairwise (fun a b => a.1 ≠ b.1) := List.pairwise_map.1 s.rooms.nodup
    refine List.pairwise_map.2 (hkeys.imp_of_mem (fun {a b} ha hb hne he => hne ?_))
    rw [← hk (IndexMap.mem_entries.1 ha), ← hk (IndexMap.mem_entries.1 hb)]
    exact he
  have hle : (s.listed p after).Pairwise (fun a b => a.id ≤ b.id) := by
    have : Std.Total (fun a b : Room => a.id ≤ b.id) := ⟨fun a b => String.le_total a.id b.id⟩
    have : IsTrans Room (fun a b => a.id ≤ b.id) := ⟨fun _ _ _ h h' => String.le_trans h h'⟩
    exact List.pairwise_insertionSort _ _
  exact (hle.and hnodup).imp (fun {a b} h => String.not_le.1 (fun h' => h.2 (String.le_antisymm h.1 h')))

/-- What a page is, after this identifier: the first of the listed rooms, at least one if there are any; and its cursor,
the last of them, or null when no room is left. -/
structure Page (s : Server) (p after : String) (rs : List Room) (cursor : Value) : Prop where
  first : ∃ rest, s.listed p after = rs ++ rest ∧
    ((rest = [] ∧ cursor = .null) ∨ ∃ r, rs.getLast? = some r ∧ cursor = .str r.id)
  nonempty : s.listed p after ≠ [] → rs ≠ []
  fits : rs ≠ [] → (s.encoded (onGetRooms (rs.map s.dto) cursor)).isSome

theorem encoded_isSome {s : Server} {v w : Value} (h : Protocol.size v ≤ Protocol.size w) (hw : (s.encoded w).isSome) :
    (s.encoded v).isSome := by
  unfold encoded Config.fits at hw ⊢
  split at hw
  · rename_i hfit
    rw [Bool.and_eq_true, decide_eq_true_iff, decide_eq_true_iff] at hfit
    rw [if_pos (by rw [Bool.and_eq_true, decide_eq_true_iff, decide_eq_true_iff]; omega)]
    rfl
  · cases hw

/-- **Every request gets a page.** -/
theorem page_spec {s : Server} {p : String} (h : s.Listable p) (d : Value) : ∃ rs cursor,
    s.pageOf p d = some (rs.map s.dto, cursor) ∧
      s.Page p (lowerText (((d.idx "after").asStr).getD "")) rs cursor := by
  unfold pageOf
  generalize lowerText (((d.idx "after").asStr).getD "") = after
  obtain ⟨k, hk, hloop, hpos, hfits⟩ := pageLoop_spec s (s.listed p after) [] .null (fun _ r rest hrs => by
    obtain ⟨⟨id, hr⟩, -, hvis⟩ := mem_listed.1 (hrs ▸ List.mem_cons_self : r ∈ s.listed p after)
    have hone := h.fits hr hvis
    split
    · refine encoded_isSome (size_onGetRooms_null _ ?_) hone
      rw [h.keyed hr, isUuid_length (h.uuid hr).1]
      decide
    · exact hone)
  refine ⟨(s.listed p after).take k, _, hloop, ⟨(s.listed p after).drop k, (List.take_append_drop _ _).symm, ?_⟩,
    fun hne he => ?_, fun hne => hfits (Nat.pos_of_ne_zero (fun he => ?_))⟩
  · cases k with
    | zero =>
      -- nothing was taken, so nothing is listed
      have hnil : s.listed p after = [] := by
        by_contra hne
        exact absurd (hpos rfl hne) (Nat.lt_irrefl 0)
      refine .inl ⟨by rw [hnil]; rfl, by rw [cursorOf_zero]⟩
    | succ k =>
      rcases cursorOf_succ (s.listed p after) k .null hk with ⟨hlen, hc⟩ | ⟨r, hlast, hc⟩
      · exact .inl ⟨List.drop_eq_nil_of_le (Nat.le_of_eq hlen.symm), hc⟩
      · exact .inr ⟨r, hlast, hc⟩
  · have hk0 := hpos rfl hne
    have hlen := congrArg List.length he
    rw [List.length_take, List.length_nil] at hlen
    have := List.length_pos_of_ne_nil hne
    omega
  · subst he
    exact hne List.take_zero

/-! Following the cursors. -/

/-- The request that follows a cursor; the first one has none. -/
def request (cursor : Value) : Value := if cursor.isNull then .null else .obj [("after", cursor)]

/-- The `i`-th page of a scan, each taken of what the server is by then; none once a page had no cursor. -/
def scan (p : String) (ss : Nat → Server) : Nat → Option (List Value × Value)
  | 0 => (ss 0).pageOf p (request .null)
  | i + 1 =>
    match scan p ss i with
    | some (_, .str id) => (ss (i + 1)).pageOf p (request (.str id))
    | _ => none

/-- The request for the `n`-th page. -/
def asked (p : String) (ss : Nat → Server) : Nat → Value
  | 0 => .null
  | n + 1 => request (((scan p ss n).map Prod.snd).getD .null)

/-- The identifiers a page shows. -/
def shownIds (data : List Value) : List String := data.filterMap (fun d => (d.idx "roomId").asStr)

/-- The identifiers the scan has returned up to its `n`-th page. -/
def returned (p : String) (ss : Nat → Server) : Nat → List String
  | 0 => shownIds (((scan p ss 0).map Prod.fst).getD [])
  | n + 1 => returned p ss n ++ shownIds (((scan p ss (n + 1)).map Prod.fst).getD [])

/-- The room is there and visible on this page and every one before. -/
def Stays (p : String) (ss : Nat → Server) (n : Nat) (id : String) : Prop :=
  ∀ i, i ≤ n → ∃ r, (ss i).rooms.get id = some r ∧ r.Visible p

omit [Extern] in
theorem shownIds_dto (s : Server) : ∀ rs : List Room, shownIds (rs.map s.dto) = rs.map (·.id)
  | [] => rfl
  | r :: rs => by
    rw [List.map_cons, List.map_cons, ← shownIds_dto s rs]
    rfl

section Scan

variable {p : String} {ss : Nat → Server} (h : ∀ i, (ss i).Listable p)

include h

theorem scan_zero : ∃ rs cursor, scan p ss 0 = some (rs.map (ss 0).dto, cursor) ∧ (ss 0).Page p "" rs cursor :=
  page_spec (h 0) (request .null)

/-- A cursor is the identifier of a room of its page, and gets the next page. -/
theorem scan_succ {n : Nat} {data : List Value} {id : String} (hn : scan p ss n = some (data, .str id))
    (hid : isUuid id = true ∧ lowerText id = id) : ∃ rs cursor,
      scan p ss (n + 1) = some (rs.map (ss (n + 1)).dto, cursor) ∧ (ss (n + 1)).Page p id rs cursor := by
  have hpage := page_spec (h (n + 1)) (request (.str id))
  rw [show (((request (.str id)).idx "after").asStr).getD "" = id from rfl, hid.2] at hpage
  rw [scan, hn]
  exact hpage

/-- Where the `n`-th page begins. -/
theorem scan_page : ∀ {n : Nat} {data : List Value} {cursor : Value}, scan p ss n = some (data, cursor) →
    ∃ rs after, data = rs.map (ss n).dto ∧ (ss n).Page p after rs cursor ∧
      (∀ id, cursor = .str id → isUuid id = true ∧ lowerText id = id) ∧
      (n = 0 ∧ after = "" ∨ ∃ m data', n = m + 1 ∧ scan p ss m = some (data', .str after))
  | 0, data, cursor, hn => by
    obtain ⟨rs, c, hs, hpage⟩ := scan_zero h
    rw [hs] at hn
    cases hn
    refine ⟨rs, "", rfl, hpage, fun id hc => ?_, .inl ⟨rfl, rfl⟩⟩
    obtain ⟨rest, hlist, ⟨-, hnull⟩ | ⟨r, hlast, hcur⟩⟩ := hpage.first
    · rw [hnull] at hc; cases hc
    · rw [hcur] at hc
      cases hc
      obtain ⟨⟨k, hr⟩, -, -⟩ := mem_listed.1 (hlist ▸ List.mem_append_left rest (List.mem_of_getLast? hlast))
      rw [(h 0).keyed hr]
      exact (h 0).uuid hr
  | n + 1, data, cursor, hn => by
    have hprev : ∃ data' id, scan p ss n = some (data', .str id) := by
      rw [scan] at hn
      split at hn
      · rename_i data' id heq
        exact ⟨data', id, heq⟩
      · cases hn
    obtain ⟨data', id, hm⟩ := hprev
    obtain ⟨-, -, -, -, hids, -⟩ := scan_page hm
    obtain ⟨rs, c, hs, hpage⟩ := scan_succ h hm (hids id rfl)
    rw [hs] at hn
    cases hn
    refine ⟨rs, id, rfl, hpage, fun id' hc => ?_, .inr ⟨n, data', rfl, hm⟩⟩
    obtain ⟨rest, hlist, ⟨-, hnull⟩ | ⟨r, hlast, hcur⟩⟩ := hpage.first
    · rw [hnull] at hc; cases hc
    · rw [hcur] at hc
      cases hc
      obtain ⟨⟨k, hr⟩, -, -⟩ := mem_listed.1 (hlist ▸ List.mem_append_left rest (List.mem_of_getLast? hlast))
      rw [(h (n + 1)).keyed hr]
      exact (h (n + 1)).uuid hr

omit h in
/-- **Rooms on a page**: after the identifier it begins with, sorted; up to its cursor; and with every visible room up to
there. -/
theorem Page.spec {s : Server} {after : String} {rs : List Room} {cursor : Value} (hs : s.Listable p)
    (hp : s.Page p after rs cursor) :
    (rs.map (·.id)).Pairwise (· < ·) ∧ (∀ x ∈ rs.map (·.id), after < x) ∧
      (∀ id, cursor = .str id → after < id ∧ ∀ x ∈ rs.map (·.id), x ≤ id) ∧
      ∀ x r, s.rooms.get x = some r → r.Visible p → after < x → (∀ id, cursor = .str id → x ≤ id) → x ∈ rs.map (·.id) := by
  obtain ⟨rest, hlist, hcur⟩ := hp.first
  have hsort := listed_sorted (p := p) hs.keyed after
  rw [hlist, List.pairwise_append] at hsort
  have hafter : ∀ x ∈ rs.map (·.id), after < x := fun x hx => by
    obtain ⟨r, hr, rfl⟩ := List.mem_map.1 hx
    exact (mem_listed.1 (hlist ▸ List.mem_append_left rest hr)).2.1
  refine ⟨List.pairwise_map.2 hsort.1, hafter, fun id hc => ?_, fun x r hr hvis hlt hle => ?_⟩
  · rcases hcur with ⟨-, hnull⟩ | ⟨r, hlast, hstr⟩
    · rw [hnull] at hc; cases hc
    rw [hstr] at hc
    cases hc
    obtain ⟨front, hfront⟩ : ∃ front, rs = front ++ [r] := List.getLast?_eq_some_iff.1 hlast
    refine ⟨hafter r.id (List.mem_map.2 ⟨r, List.mem_of_getLast? hlast, rfl⟩), fun x hx => ?_⟩
    obtain ⟨r', hr', rfl⟩ := List.mem_map.1 hx
    rw [hfront] at hr' hsort
    rcases List.mem_append.1 hr' with hm | hm
    · exact Std.le_of_lt ((List.pairwise_append.1 hsort.1).2.2 r' hm r (List.mem_singleton_self r))
    · exact congrArg Room.id (List.mem_singleton.1 hm) ▸ String.le_refl _
  · have hid := hs.keyed hr
    have hmem : r ∈ rs ++ rest := by
      rw [← hlist]
      exact mem_listed.2 ⟨⟨x, hr⟩, by rw [hid]; exact hlt, hvis⟩
    rcases List.mem_append.1 hmem with hm | hm
    · exact List.mem_map.2 ⟨r, hm, hid⟩
    · -- what is left for later lies beyond the cursor
      rcases hcur with ⟨hnil, -⟩ | ⟨r', hlast, hstr⟩
      · rw [hnil] at hm; cases hm
      · have hlt' := hsort.2.2 r' (List.mem_of_getLast? hlast) r hm
        rw [hid] at hlt'
        exact absurd (hle r'.id hstr) (String.not_le.2 hlt')

/-- **Up to each page, the scan returned identifiers in strictly increasing order**, none beyond the cursor, and among
them every room up to the cursor that was there and visible all the time. -/
theorem scan_inv : ∀ {n : Nat} {data : List Value} {cursor : Value}, scan p ss n = some (data, cursor) →
    (returned p ss n).Pairwise (· < ·) ∧ (∀ id, cursor = .str id → ∀ x ∈ returned p ss n, x ≤ id) ∧
      ∀ x, Stays p ss n x → (∀ id, cursor = .str id → x ≤ id) → x ∈ returned p ss n
  | 0, data, cursor, hn => by
    obtain ⟨rs, after, rfl, hpage, -, ⟨-, rfl⟩ | ⟨m, data', hm, -⟩⟩ := scan_page h hn
    · obtain ⟨hsort, -, hcur, hall⟩ := hpage.spec (h 0)
      have hret : returned p ss 0 = rs.map (·.id) := by
        rw [returned, hn]
        exact shownIds_dto (ss 0) rs
      rw [hret]
      refine ⟨hsort, fun id hc => (hcur id hc).2, fun x hx hle => ?_⟩
      obtain ⟨r, hr, hvis⟩ := hx 0 (Nat.le_refl 0)
      refine hall x r hr hvis ?_ hle
      -- every identifier comes after the empty one
      have hlen := isUuid_length ((h 0).uuid hr).1
      refine String.not_le.1 (fun hle' => ?_)
      have hnil : x.toList = [] := by
        have := String.le_antisymm hle' (String.not_lt.1 (fun hlt => absurd hlt (List.not_lt_nil _)))
        rw [this]
        rfl
      rw [hnil] at hlen
      cases hlen
    · cases hm
  | n + 1, data, cursor, hn => by
    obtain ⟨rs, after, rfl, hpage, -, ⟨hz, -⟩ | ⟨m, data', hm, hprev⟩⟩ := scan_page h hn
    · cases hz
    cases hm
    obtain ⟨hsort₀, hcur₀, hall₀⟩ := scan_inv hprev
    obtain ⟨hsort, hafter, hcur, hall⟩ := hpage.spec (h (n + 1))
    have hret : returned p ss (n + 1) = returned p ss n ++ rs.map (·.id) := by
      rw [returned, hn]
      exact congrArg (returned p ss n ++ ·) (shownIds_dto (ss (n + 1)) rs)
    rw [hret]
    refine ⟨List.pairwise_append.2 ⟨hsort₀, hsort, fun x hx y hy => ?_⟩, fun id hc x hx => ?_, fun x hx hle => ?_⟩
    · exact Std.lt_of_le_of_lt (hcur₀ after rfl x hx) (hafter y hy)
    · rcases List.mem_append.1 hx with hx | hx
      · exact Std.le_of_lt (Std.lt_of_le_of_lt (hcur₀ after rfl x hx) (hcur id hc).1)
      · exact (hcur id hc).2 x hx
    · by_cases hbefore : x ≤ after
      · refine List.mem_append_left _ (hall₀ x (fun i hi => hx i (Nat.le_succ_of_le hi)) (fun id hc => ?_))
        cases hc
        exact hbefore
      · obtain ⟨r, hr, hvis⟩ := hx (n + 1) (Nat.le_refl _)
        exact List.mem_append_right _ (hall x r hr hvis (String.not_le.1 hbefore) hle)

/-- While cursors go on they increase, so they do not go on for ever. -/
theorem scan_ends : ∃ n data, scan p ss n = some (data, .null) := by
  by_contra hnone
  push Not at hnone
  have hnext : ∀ n, ∃ data id, scan p ss n = some (data, .str id) := fun n => by
    have hsome : ∃ data cursor, scan p ss n = some (data, cursor) := by
      induction n with
      | zero =>
        obtain ⟨rs, cursor, hs, -⟩ := scan_zero h
        exact ⟨_, cursor, hs⟩
      | succ n ih =>
        obtain ⟨data, cursor, hs⟩ := ih
        obtain ⟨rs, after, -, hpage, hids, -⟩ := scan_page h hs
        obtain ⟨rest, -, ⟨-, hnull⟩ | ⟨r, -, hstr⟩⟩ := hpage.first
        · exact absurd (hnull ▸ hs) (hnone n data)
        · obtain ⟨rs', cursor', hs', -⟩ := scan_succ h (hstr ▸ hs) (hids r.id hstr)
          exact ⟨_, cursor', hs'⟩
    obtain ⟨data, cursor, hs⟩ := hsome
    obtain ⟨rs, after, -, hpage, -, -⟩ := scan_page h hs
    obtain ⟨rest, -, ⟨-, hnull⟩ | ⟨r, -, hstr⟩⟩ := hpage.first
    · exact absurd (hnull ▸ hs) (hnone n data)
    · exact ⟨data, r.id, hstr ▸ hs⟩
  choose data id hscan using hnext
  have hstep : ∀ n, id n < id (n + 1) := fun n => by
    obtain ⟨rs, after, -, hpage, -, ⟨hz, -⟩ | ⟨m, data', hm, hprev⟩⟩ := scan_page h (hscan (n + 1))
    · cases hz
    · cases hm
      have hafter : after = id n := by
        have := hprev.symm.trans (hscan n)
        rw [Option.some.injEq, Prod.mk.injEq, Value.str.injEq] at this
        exact this.2
      exact hafter ▸ ((hpage.spec (h (n + 1))).2.2.1 _ rfl).1
  have hlt : ∀ {m n : Nat}, m < n → id m < id n := fun {m n} hmn => by
    have : IsTrans String (· < ·) := ⟨fun _ _ _ => String.lt_trans⟩
    exact Nat.rel_of_forall_rel_succ_of_lt (· < ·) hstep hmn
  have hinj : Function.Injective id := fun m n he => by
    rcases Nat.lt_trichotomy m n with hmn | rfl | hmn
    · exact absurd (he ▸ hlt hmn) (String.lt_irrefl _)
    · rfl
    · exact absurd (he ▸ hlt hmn) (String.lt_irrefl _)
  refine Set.infinite_of_injective_forall_mem hinj (fun n => ?_) finite_uuids
  obtain ⟨-, -, -, -, hids, -⟩ := scan_page h (hscan n)
  exact (hids (id n) rfl).1

/-- The `n`-th page is what the server answers: the request for it is admitted and replied to with it. -/
theorem scan_answered {n : Nat} {data : List Value} {cursor : Value} (hn : scan p ss n = some (data, cursor)) :
    (∀ v roomMax accounts, Protocol.validData v (asked p ss n) roomMax accounts "getRooms" = true) ∧
      ∀ env cid, (ss n).handle env cid p (.obj [("method", .str "getRooms"), ("data", asked p ss n)]) =
        .ok ((ss n).send p (onGetRooms data cursor)) := by
  have hreq : (∀ v roomMax accounts, Protocol.validData v (asked p ss n) roomMax accounts "getRooms" = true) ∧
      (ss n).pageOf p (asked p ss n) = some (data, cursor) := by
    cases n with
    | zero => exact ⟨fun _ _ _ => rfl, hn⟩
    | succ n =>
      obtain ⟨-, after, -, -, -, ⟨hz, -⟩ | ⟨m, data', hm, hprev⟩⟩ := scan_page h hn
      · cases hz
      cases hm
      obtain ⟨-, -, -, -, hids, -⟩ := scan_page h hprev
      have hask : asked p ss (n + 1) = .obj [("after", .str after)] := by
        rw [asked, hprev]
        rfl
      rw [hask]
      refine ⟨fun v _ _ => ?_, ?_⟩
      · exact (hids after rfl).1
      · rw [scan, hprev] at hn
        exact hn
  refine ⟨hreq.1, fun env cid => ?_⟩
  have hget : (ss n).getRooms p (asked p ss n) = (ss n).send p (onGetRooms data cursor) := by
    rw [getRooms_eq, hreq.2]
  exact congrArg Out.ok hget

end Scan

/-- A page in order: sorted, within the budget, and with no room only when no room is left to show. -/
structure InOrder (s : Server) (p : String) (asked : Value) (data : List Value) (cursor : Value) : Prop where
  sorted : (shownIds data).Pairwise (· < ·)
  fits : data ≠ [] ∨ (s.encoded (onGetRooms [] .null)).isSome → (s.encoded (onGetRooms data cursor)).isSome
  left : data = [] → cursor = .null ∧
    ∀ id r, s.rooms.get id = some r → r.Visible p → ¬ ((asked.idx "after").asStr).getD "" < id

omit [Extern] in
theorem alone_rooms {id : String} {r : Room} (hr : alone.rooms.get id = some r) :
    id = Trace.room ∧ r = Trace.arena := by
  by_cases hid : id = Trace.room
  · subst hid
    cases hr
    exact ⟨rfl, rfl⟩
  · have hget : alone.rooms.get id = IndexMap.empty.get id := IndexMap.get_insert_ne _ _ hid
    rw [hget] at hr
    cases hr

/-- One account, no room, and a buffer of fifty bytes. -/
def cramped : Server := { alone with config := { Config.default with maxBufferedBytes := 50 }, rooms := .empty }

end Server
end Relay
