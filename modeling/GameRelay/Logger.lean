import GameRelay.Json
import GameRelay.Uuid
import Mathlib
/-!
# Logger — rotated log files (`diagnostics.rs`)

A file is known by the number in its name; the 20 digits order names as numbers.  `Logger.Retains` says which records
stand in which file.  Removing the oldest file keeps it, and so does a record; hence **what is retained is a suffix of
what was written, within the budget** (`rotation_keeps_suffix`).
-/
namespace Relay

/-- The logger, with the `server-*.jsonl` files on disk. -/
structure Logger where
  max : Nat
  fileMax : Nat
  /-- The number and size of each file, the oldest first. -/
  files : List (Nat × Nat)
  total : Nat
  seq : Nat
  /-- The file that is open. -/
  file : Option Nat
  disk : Nat → Option Bytes

namespace Logger

/-- The oldest file is removed. -/
def popFront (l : Logger) (f : Nat × Nat) (files : List (Nat × Nat)) : Logger :=
  { l with
    files, file := if files.isEmpty then none else l.file, disk := Function.update l.disk f.1 none,
    total := l.total - f.2 }

def roomLoop (n : Nat) : List (Nat × Nat) → Logger → Logger
  | [], l => l
  | f :: files, l => if l.total + n > l.max then roomLoop n files (l.popFront f files) else l

def room (l : Logger) (n : Nat) : Logger := l.roomLoop n l.files

/-- Started on a directory with these files, in any order. -/
def new (max fileMax : Nat) (entries : List (Nat × Bytes)) : Logger :=
  let files := (entries.map (fun e => (e.1, e.2.length))).insertionSort (fun a b => a.1 ≤ b.1)
  room
    { max, fileMax, files, total := (files.map Prod.snd).sum, seq := entries.foldl (fun seq e => Nat.max seq e.1) 0,
      file := none, disk := fun n => (entries.find? (fun e => e.1 = n)).map Prod.snd } 0

variable (num : Number → String)

/-- What is logged in place of a line that is too long. -/
def tooLarge (time : String) (bytes : Nat) : String :=
  Json.text num (.obj [("time", .str time), ("event", .str "log.record_too_large"), ("bytes", .ofNat bytes)])

/-- The bytes of a line as they are logged; none when not even the marker fits. -/
def record (max : Nat) (time line : String) : Option Bytes :=
  let line := line ++ "\n"
  let line :=
    if line.utf8ByteSize > max ∨ line.utf8ByteSize > 8 * 1024 * 1024 then tooLarge num time line.utf8ByteSize ++ "\n"
    else line
  if line.utf8ByteSize > max then none else some line.toUTF8.data.toList

/-- The open file is closed when the record would take it over its size. -/
def close (l : Logger) (n : Nat) : Logger :=
  if l.file.isSome ∧ (l.files.getLast?.any (fun f => decide (f.2 + n > min l.fileMax l.max))) = true then
    { l with file := none }
  else l

def create (l : Logger) : Logger :=
  if l.file.isNone then
    { l with
      seq := l.seq + 1, file := some (l.seq + 1), files := l.files ++ [(l.seq + 1, 0)],
      disk := Function.update l.disk (l.seq + 1) (some []) }
  else l

/-- The bytes go to the open file; the size of the last one grows. -/
def append (l : Logger) (bytes : Bytes) : Logger :=
  { l with
    files := l.files.dropLast ++ (l.files.getLast?.map (fun f => (f.1, f.2 + bytes.length))).toList,
    total := l.total + bytes.length,
    disk := fun n => if l.file = some n then (l.disk n).map (fun old => old ++ bytes) else l.disk n }

def write (l : Logger) (time line : String) : Logger :=
  match record num l.max time line with
  | none => l
  | some bytes => (((l.close bytes.length).room bytes.length).create).append bytes

/-! ## What is retained -/

/-- **Which records stand in which file**: the files that were there at the start, then those of this process, whose
records are a suffix of what was written. -/
structure Retains (first : Nat) (numbers : List Nat) (entries : List (Nat × Bytes)) (written : List Bytes) (l : Logger)
    (old : List (Nat × Nat)) (own : List (Nat × List Bytes)) : Prop where
  files : l.files = old ++ own.map (fun o => (o.1, o.2.flatten.length))
  older : ∀ f ∈ old, f.1 ≤ first ∧ ∃ b, (f.1, b) ∈ entries ∧ l.disk f.1 = some b ∧ b.length = f.2
  newer : ∀ o ∈ own, first < o.1 ∧ l.disk o.1 = some o.2.flatten ∧
    (o.2.length = 1 ∨ o.2.flatten.length ≤ min l.fileMax l.max)
  others : ∀ n, n ∉ l.files.map Prod.fst → l.disk n = none
  total : l.total = (l.files.map Prod.snd).sum
  order : l.files.map Prod.fst <:+ numbers ++ List.range' (first + 1) (l.seq - first)
  seq : first ≤ l.seq
  records : (own.map Prod.snd).flatten <:+ written
  last : ∀ n, l.file = some n → ∃ front rs, own = front ++ [(n, rs)]

/-- The numbers a run can give, in their order. -/
theorem range_sorted {first seq : Nat} {numbers : List Nat} (hn : numbers.Pairwise (· < ·)) (hle : ∀ n ∈ numbers, n ≤ first) :
    (numbers ++ List.range' (first + 1) (seq - first)).Pairwise (· < ·) := by
  refine List.pairwise_append.2 ⟨hn, List.pairwise_lt_range', fun a ha b hb => ?_⟩
  have ha' := hle a ha
  rw [List.mem_range'_1] at hb
  omega

theorem suffix_append {α : Type} {l w : List α} (h : l <:+ w) (x : List α) : l ++ x <:+ w ++ x := by
  obtain ⟨t, rfl⟩ := h
  exact ⟨t, (List.append_assoc t l x).symm⟩

variable {first : Nat} {numbers : List Nat} {entries : List (Nat × Bytes)} {written : List Bytes} {l : Logger}
  {old : List (Nat × Nat)} {own : List (Nat × List Bytes)}

namespace Retains

theorem sorted (h : Retains first numbers entries written l old own) (hn : numbers.Pairwise (· < ·))
    (hle : ∀ n ∈ numbers, n ≤ first) : (l.files.map Prod.fst).Pairwise (· < ·) :=
  (range_sorted hn hle).sublist h.order.sublist

/-- The next number is new. -/
theorem fresh (h : Retains first numbers entries written l old own) (hle : ∀ n ∈ numbers, n ≤ first) {n : Nat}
    (hmem : n ∈ l.files.map Prod.fst) : n ≤ l.seq := by
  have hseq := h.seq
  rcases List.mem_append.1 (h.order.subset hmem) with hn | hn
  · exact Nat.le_trans (hle n hn) hseq
  · rw [List.mem_range'_1] at hn
    omega

/-- **Removing the oldest file.** -/
theorem popFront (h : Retains first numbers entries written l old own) (hn : numbers.Pairwise (· < ·))
    (hle : ∀ n ∈ numbers, n ≤ first) {f : Nat × Nat} {files : List (Nat × Nat)} (hf : l.files = f :: files) :
    ∃ old' own', Retains first numbers entries written (l.popFront f files) old' own' := by
  have hsorted := h.sorted hn hle
  rw [hf, List.map_cons, List.pairwise_cons] at hsorted
  have hdisk : ∀ n ∈ files.map Prod.fst, (l.popFront f files).disk n = l.disk n := fun n hmem => by
    show Function.update l.disk f.1 none n = l.disk n
    exact Function.update_of_ne (Nat.ne_of_gt (hsorted.1 n hmem)) none l.disk
  have hothers : ∀ n, n ∉ files.map Prod.fst → (l.popFront f files).disk n = none := by
    intro n hmem
    by_cases he : n = f.1
    · subst he
      exact Function.update_self f.1 none l.disk
    · refine (Function.update_of_ne he none l.disk).trans (h.others n ?_)
      rw [hf, List.map_cons]
      exact List.not_mem_cons_of_ne_of_not_mem he hmem
  have htotal : l.total - f.2 = (files.map Prod.snd).sum := by
    rw [h.total, hf, List.map_cons, List.sum_cons]
    omega
  have horder : files.map Prod.fst <:+ numbers ++ List.range' (first + 1) (l.seq - first) := by
    refine List.IsSuffix.trans ?_ h.order
    rw [hf, List.map_cons]
    exact List.suffix_cons _ _
  have hfiles := h.files
  rw [hf] at hfiles
  cases old with
  | cons g old =>
    rw [List.cons_append, List.cons.injEq] at hfiles
    obtain ⟨rfl, rfl⟩ := hfiles
    refine ⟨old, own, ⟨rfl, fun g hg => ?_, fun o ho => ?_, hothers, htotal, horder, h.seq, h.records, fun n hopen => ?_⟩⟩
    · rw [hdisk g.1 (List.mem_map_of_mem (List.mem_append_left _ hg))]
      exact h.older g (List.mem_cons_of_mem _ hg)
    · rw [hdisk o.1 (List.mem_map_of_mem (f := Prod.fst) (List.mem_append_right old (List.mem_map_of_mem ho)))]
      exact h.newer o ho
    · change (if _ then none else l.file) = some n at hopen
      split at hopen
      · cases hopen
      · exact h.last n hopen
  | nil =>
    cases own with
    | nil => cases hfiles
    | cons o own =>
      rw [List.nil_append, List.map_cons, List.cons.injEq] at hfiles
      obtain ⟨rfl, rfl⟩ := hfiles
      refine ⟨[], own, ⟨rfl, (fun _ hg => nomatch hg), fun p hp => ?_, hothers, htotal, horder, h.seq, ?_, fun n hopen => ?_⟩⟩
      · rw [hdisk p.1 (List.mem_map_of_mem (f := Prod.fst) (List.mem_map_of_mem hp))]
        exact h.newer p (List.mem_cons_of_mem o hp)
      · refine List.IsSuffix.trans ?_ h.records
        rw [List.map_cons, List.flatten_cons]
        exact List.suffix_append _ _
      · change (if _ then none else l.file) = some n at hopen
        split at hopen
        · cases hopen
        · rename_i hne
          obtain ⟨front, rs, he⟩ := h.last n hopen
          cases front with
          | nil =>
            obtain rfl := (List.cons.inj he).2
            exact absurd rfl hne
          | cons p front => exact ⟨front, rs, (List.cons.inj he).2⟩

theorem roomLoop (hn : numbers.Pairwise (· < ·)) (hle : ∀ n ∈ numbers, n ≤ first) (n : Nat) :
    ∀ (files : List (Nat × Nat)) {l : Logger} {old : List (Nat × Nat)} {own : List (Nat × List Bytes)},
      Retains first numbers entries written l old own → l.files = files →
      ∃ old' own', Retains first numbers entries written (l.roomLoop n files) old' own'
  | [], _, old, own, h, _ => ⟨old, own, h⟩
  | f :: files, l, old, own, h, hf => by
    unfold Logger.roomLoop
    split
    · obtain ⟨_, _, h'⟩ := h.popFront hn hle hf
      exact roomLoop hn hle n files h' rfl
    · exact ⟨old, own, h⟩

end Retains

/-- **Room is made from the front**, until the record fits. -/
theorem roomLoop_spec (n : Nat) : ∀ (files : List (Nat × Nat)) (l : Logger), l.files = files →
    (l.roomLoop n files).max = l.max ∧ (l.roomLoop n files).fileMax = l.fileMax ∧ (l.roomLoop n files).seq = l.seq ∧
      (l.roomLoop n files).files <:+ l.files ∧
      (∀ p, (l.roomLoop n files).file = some p → l.file = some p) ∧
      ((l.roomLoop n files).total + n ≤ l.max ∨ (l.roomLoop n files).files = [])
  | [], l, hf => ⟨rfl, rfl, rfl, List.suffix_refl _, fun _ h => h, .inr hf⟩
  | f :: files, l, hf => by
    unfold Logger.roomLoop
    split
    · obtain ⟨hmax, hfm, hseq, hsuf, hfile, hfit⟩ := roomLoop_spec n files (l.popFront f files) rfl
      refine ⟨hmax, hfm, hseq, hsuf.trans ?_, fun p hp => ?_, hfit⟩
      · rw [hf]
        exact List.suffix_cons _ _
      · have h := hfile p hp
        change (if _ then none else l.file) = some p at h
        split at h
        · cases h
        · exact h
    · rename_i h
      exact ⟨rfl, rfl, rfl, List.suffix_refl _, fun _ h => h, .inl (Nat.le_of_not_lt h)⟩

namespace Retains

theorem close (h : Retains first numbers entries written l old own) (n : Nat) :
    Retains first numbers entries written (l.close n) old own := by
  unfold Logger.close
  split
  · exact ⟨h.files, h.older, h.newer, h.others, h.total, h.order, h.seq, h.records, fun _ hp => nomatch hp⟩
  · exact h

/-- **A record in a new file.** -/
theorem record_new (h : Retains first numbers entries written l old own) (hle : ∀ n ∈ numbers, n ≤ first)
    (hfile : l.file = none) (bytes : Bytes) :
    Retains first numbers entries (written ++ [bytes]) (l.create.append bytes) old (own ++ [(l.seq + 1, [bytes])]) := by
  have hne : ∀ n ∈ l.files.map Prod.fst, n ≠ l.seq + 1 := fun n hn => by
    have := h.fresh hle hn
    omega
  have he : l.create.append bytes =
      { l with
        files := l.files ++ [(l.seq + 1, bytes.length)], total := l.total + bytes.length, seq := l.seq + 1,
        file := some (l.seq + 1), disk := Function.update l.disk (l.seq + 1) (some bytes) } := by
    unfold Logger.create Logger.append
    simp only [hfile, Option.isNone_none, if_true, List.dropLast_concat, List.getLast?_concat, Option.map_some,
      Option.toList_some, Nat.zero_add, Logger.mk.injEq, true_and]
    funext n
    by_cases hn : n = l.seq + 1
    · subst hn
      simp
    · rw [if_neg (fun h => hn (Option.some.inj h).symm), Function.update_of_ne hn, Function.update_of_ne hn]
  have hdisk : ∀ n ∈ l.files.map Prod.fst, Function.update l.disk (l.seq + 1) (some bytes) n = l.disk n :=
    fun n hn => Function.update_of_ne (hne n hn) _ _
  have hseq := h.seq
  rw [he]
  refine ⟨?_, fun f hf => ?_, ?_, fun n hn => ?_, ?_, ?_, Nat.le_succ_of_le hseq, ?_, fun n hn => ?_⟩
  · simp only [h.files, List.append_assoc, List.map_append, List.map_cons, List.map_nil, List.flatten_cons,
      List.flatten_nil, List.append_nil]
  · dsimp only
    rw [hdisk f.1 (by rw [h.files]; exact List.mem_map_of_mem (List.mem_append_left _ hf))]
    exact h.older f hf
  · refine List.forall_mem_append.2 ⟨fun o ho => ?_, List.forall_mem_singleton.2 ⟨by omega, ?_, .inl rfl⟩⟩
    · have hmem : o.1 ∈ l.files.map Prod.fst := by
        rw [h.files]
        exact List.mem_map_of_mem (f := Prod.fst) (List.mem_append_right old (List.mem_map_of_mem ho))
      dsimp only
      rw [hdisk o.1 hmem]
      exact h.newer o ho
    · dsimp only
      rw [Function.update_self, List.flatten_cons, List.flatten_nil, List.append_nil]
  · simp only [List.map_append, List.map_cons, List.map_nil, List.mem_append, List.mem_singleton, not_or] at hn
    exact (Function.update_of_ne hn.2 _ _).trans (h.others n hn.1)
  · rw [h.total, List.map_append, List.sum_append]
    rfl
  · have hrange : List.range' (first + 1) (l.seq + 1 - first) =
        List.range' (first + 1) (l.seq - first) ++ [l.seq + 1] := by
      rw [show l.seq + 1 - first = l.seq - first + 1 by omega, List.range'_concat]
      congr 2
      omega
    rw [hrange, List.map_append, ← List.append_assoc]
    exact suffix_append h.order _
  · rw [List.map_append, List.flatten_append]
    exact suffix_append h.records _
  · exact ⟨own, [bytes], by rw [Option.some.inj hn]⟩

/-- **A record in the open file**, within its size. -/
theorem record_open (h : Retains first numbers entries written l old own) (hn : numbers.Pairwise (· < ·))
    (hle : ∀ n ∈ numbers, n ≤ first) {p : Nat} (hfile : l.file = some p) (bytes : Bytes)
    (hsize : ∀ f, l.files.getLast? = some f → f.2 + bytes.length ≤ min l.fileMax l.max) :
    ∃ own', Retains first numbers entries (written ++ [bytes]) (l.create.append bytes) old own' := by
  obtain ⟨front, rs, rfl⟩ := h.last p hfile
  have hfiles := h.files
  rw [List.map_append, ← List.append_assoc] at hfiles
  have hlast : l.files.getLast? = some (p, rs.flatten.length) := by
    rw [hfiles]
    exact List.getLast?_concat
  have hdrop : l.files.dropLast = old ++ front.map (fun o => (o.1, o.2.flatten.length)) := by
    rw [hfiles]
    exact List.dropLast_concat
  have hp := h.newer (p, rs) (List.mem_append_right _ List.mem_cons_self)
  have hlt : ∀ n ∈ (old ++ front.map (fun o => (o.1, o.2.flatten.length))).map Prod.fst, n ≠ p := by
    have hsorted := h.sorted hn hle
    rw [hfiles, List.map_append, List.pairwise_append] at hsorted
    exact fun n hmem => Nat.ne_of_lt (hsorted.2.2 n hmem p List.mem_cons_self)
  have he : l.create.append bytes =
      { l with
        files := old ++ front.map (fun o => (o.1, o.2.flatten.length)) ++ [(p, rs.flatten.length + bytes.length)],
        total := l.total + bytes.length, disk := Function.update l.disk p (some (rs.flatten ++ bytes)) } := by
    unfold Logger.create Logger.append
    simp only [hfile, Option.isNone_some, Bool.false_eq_true, if_false, hlast, hdrop, Option.map_some, Option.toList_some,
      Logger.mk.injEq, true_and]
    funext n
    by_cases hn : n = p
    · subst hn
      rw [if_pos rfl, hp.2.1, Function.update_self]
      rfl
    · rw [if_neg (fun h => hn (Option.some.inj h).symm), Function.update_of_ne hn]
  have hdisk : ∀ n ∈ (old ++ front.map (fun o => (o.1, o.2.flatten.length))).map Prod.fst,
      Function.update l.disk p (some (rs.flatten ++ bytes)) n = l.disk n :=
    fun n hmem => Function.update_of_ne (hlt n hmem) _ _
  have hnames : l.files.map Prod.fst = (old ++ front.map (fun o => (o.1, o.2.flatten.length))).map Prod.fst ++ [p] := by
    rw [hfiles, List.map_append]
    rfl
  refine ⟨front ++ [(p, rs ++ [bytes])], ?_⟩
  rw [he]
  refine ⟨?_, fun f hf => ?_, ?_, fun n hmem => ?_, ?_, ?_, h.seq, ?_, fun n hopen => ?_⟩
  · simp only [List.map_append, List.map_cons, List.map_nil, List.flatten_append, List.flatten_cons, List.flatten_nil,
      List.append_nil, List.length_append, List.append_assoc]
  · dsimp only
    rw [hdisk f.1 (List.mem_map_of_mem (List.mem_append_left _ hf))]
    exact h.older f hf
  · refine List.forall_mem_append.2 ⟨fun o ho => ?_, List.forall_mem_singleton.2 ⟨hp.1, ?_, .inr ?_⟩⟩
    · dsimp only
      rw [hdisk o.1 (List.mem_map_of_mem (f := Prod.fst) (List.mem_append_right old (List.mem_map_of_mem ho)))]
      exact h.newer o (List.mem_append_left _ ho)
    · simp only [Function.update_self, List.flatten_append, List.flatten_cons, List.flatten_nil, List.append_nil]
    · have hfit := hsize _ hlast
      simpa only [List.flatten_append, List.flatten_cons, List.flatten_nil, List.append_nil, List.length_append] using hfit
  · rw [List.map_append, List.mem_append, not_or] at hmem
    refine (Function.update_of_ne (fun he => hmem.2 (by rw [he]; exact List.mem_cons_self)) _ _).trans (h.others n ?_)
    rw [hnames, List.mem_append, not_or]
    exact ⟨hmem.1, hmem.2⟩
  · simp only [h.total, hfiles, List.map_append, List.sum_append, List.map_cons, List.map_nil, List.sum_cons, List.sum_nil,
      Nat.add_zero]
    omega
  · have hsame : (old ++ front.map (fun o => (o.1, o.2.flatten.length)) ++ [(p, rs.flatten.length + bytes.length)]).map
        Prod.fst = l.files.map Prod.fst := by
      rw [hnames, List.map_append]
      rfl
    rw [hsame]
    exact h.order
  · have hrec := suffix_append h.records [bytes]
    simpa only [List.map_append, List.map_cons, List.map_nil, List.flatten_append, List.flatten_cons, List.flatten_nil,
      List.append_nil, List.append_assoc] using hrec
  · obtain rfl := Option.some.inj (hfile.symm.trans hopen)
    exact ⟨front, rs ++ [bytes], rfl⟩

end Retains

/-! ## Writes -/

theorem close_spec (l : Logger) (n : Nat) : (l.close n).max = l.max ∧ (l.close n).fileMax = l.fileMax ∧
    ∀ p, (l.close n).file = some p → ∀ f, (l.close n).files.getLast? = some f → f.2 + n ≤ min l.fileMax l.max := by
  unfold close
  split
  · exact ⟨rfl, rfl, fun _ hp => nomatch hp⟩
  · rename_i h
    refine ⟨rfl, rfl, fun p hp f hf => Nat.le_of_not_lt (fun hlt => h ⟨by rw [hp]; rfl, ?_⟩)⟩
    rw [hf, Option.any_some, decide_eq_true_eq]
    exact hlt

theorem length_fits {max : Nat} {line : String} {bytes : Bytes}
    (h : (if line.utf8ByteSize > max then none else some line.toUTF8.data.toList) = some bytes) : bytes.length ≤ max := by
  split at h
  · cases h
  · rename_i hle
    obtain rfl := Option.some.inj h
    exact Nat.le_of_not_lt hle

theorem length_record {max : Nat} {time line : String} {bytes : Bytes} (h : record num max time line = some bytes) :
    bytes.length ≤ max :=
  length_fits h

theorem append_spec (l : Logger) (bytes : Bytes) : (l.create.append bytes).max = l.max ∧
    (l.create.append bytes).fileMax = l.fileMax ∧ (l.create.append bytes).total = l.total + bytes.length := by
  unfold append create
  split <;> exact ⟨rfl, rfl, rfl⟩

/-- **One write keeps what is retained**, and the budget. -/
theorem Retains.write (h : Retains first numbers entries written l old own) (hn : numbers.Pairwise (· < ·))
    (hle : ∀ n ∈ numbers, n ≤ first) (hmax : l.total ≤ l.max) (time line : String) :
    (∃ old' own', Retains first numbers entries (written ++ (record num l.max time line).toList)
      (l.write num time line) old' own') ∧
    (l.write num time line).max = l.max ∧ (l.write num time line).fileMax = l.fileMax ∧
    (l.write num time line).total ≤ l.max := by
  unfold Logger.write
  cases hr : record num l.max time line with
  | none => exact ⟨⟨old, own, by rw [Option.toList_none, List.append_nil]; exact h⟩, rfl, rfl, hmax⟩
  | some bytes =>
    have hlen := length_record num hr
    obtain ⟨hcm, hcf, hopen⟩ := close_spec l bytes.length
    obtain ⟨hrm, hrf, -, hsuf, hfile, hfit⟩ :=
      roomLoop_spec bytes.length (l.close bytes.length).files (l.close bytes.length) rfl
    obtain ⟨old', own', h'⟩ := (h.close bytes.length).roomLoop hn hle bytes.length _ rfl
    obtain ⟨ham, haf, hat⟩ := append_spec ((l.close bytes.length).room bytes.length) bytes
    refine ⟨?_, ham.trans (hrm.trans hcm), haf.trans (hrf.trans hcf), ?_⟩
    · rw [Option.toList_some]
      cases hp : ((l.close bytes.length).room bytes.length).file with
      | none => exact ⟨_, _, h'.record_new hle hp bytes⟩
      | some p =>
        refine ⟨_, h'.record_open hn hle hp bytes (fun f hf => ?_)⟩
        rw [hrm, hrf, hcm, hcf]
        refine hopen p (hfile p hp) f ?_
        obtain ⟨front, hfront⟩ := hsuf
        rw [← hfront, List.getLast?_append, hf]
        rfl
    · show (((l.close bytes.length).room bytes.length).create.append bytes).total ≤ l.max
      rw [hat]
      rcases hfit with hfit | hnil
      · exact hcm ▸ hfit
      · have hzero : ((l.close bytes.length).room bytes.length).total = 0 := by
          have htotal := h'.total
          rw [hnil] at htotal
          exact htotal
        omega

/-- **And so do all the writes of a run.** -/
theorem Retains.run (hn : numbers.Pairwise (· < ·)) (hle : ∀ n ∈ numbers, n ≤ first) {max fileMax : Nat} :
    ∀ (lines : List (String × String)) {l : Logger} {written : List Bytes} {old : List (Nat × Nat)}
      {own : List (Nat × List Bytes)}, Retains first numbers entries written l old own → l.max = max →
      l.fileMax = fileMax → l.total ≤ max →
      let l' := lines.foldl (fun l w => l.write num w.1 w.2) l
      (∃ old' own', Retains first numbers entries
        (written ++ lines.filterMap (fun w => record num max w.1 w.2)) l' old' own') ∧
      l'.max = max ∧ l'.fileMax = fileMax ∧ l'.total ≤ max
  | [], l, written, old, own, h, hm, hf, ht => by
    refine ⟨⟨old, own, ?_⟩, hm, hf, ht⟩
    rw [List.filterMap_nil, List.append_nil]
    exact h
  | w :: lines, l, written, old, own, h, hm, hf, ht => by
    subst hm hf
    obtain ⟨⟨old', own', h'⟩, hm', hf', ht'⟩ := h.write num hn hle ht w.1 w.2
    have hrun := Retains.run hn hle lines h' hm' hf' ht'
    rw [List.append_assoc] at hrun
    rw [List.filterMap_cons]
    cases hr : record num l.max w.1 w.2 with
    | none =>
      rw [hr] at hrun
      exact hrun
    | some bytes =>
      rw [hr] at hrun
      exact hrun

/-! ## The start -/

theorem le_foldl_max : ∀ (entries : List (Nat × Bytes)) (seq : Nat),
    seq ≤ entries.foldl (fun seq e => Nat.max seq e.1) seq ∧
      ∀ e ∈ entries, e.1 ≤ entries.foldl (fun seq e => Nat.max seq e.1) seq
  | [], seq => ⟨Nat.le_refl seq, fun _ h => nomatch h⟩
  | e :: entries, seq => by
    obtain ⟨hseq, hall⟩ := le_foldl_max entries (Nat.max seq e.1)
    exact ⟨Nat.le_trans (Nat.le_max_left _ _) hseq,
      List.forall_mem_cons.2 ⟨Nat.le_trans (Nat.le_max_right _ _) hseq, hall⟩⟩

theorem find_entry : ∀ {entries : List (Nat × Bytes)}, (entries.map Prod.fst).Nodup → ∀ e ∈ entries,
    entries.find? (fun x => decide (x.1 = e.1)) = some e
  | [], _, _, he => nomatch he
  | x :: entries, hnames, e, he => by
    rw [List.map_cons, List.nodup_cons] at hnames
    rcases List.mem_cons.1 he with rfl | he
    · exact List.find?_cons_of_pos (decide_eq_true rfl)
    · have hne : ¬ decide (x.1 = e.1) = true := fun hx =>
        hnames.1 (of_decide_eq_true hx ▸ List.mem_map_of_mem he)
      exact (List.find?_cons_of_neg (p := fun y : Nat × Bytes => decide (y.1 = e.1)) hne).trans (find_entry hnames.2 e he)

/-- **At the start the files that were there are retained**, but for the oldest ones over the budget. -/
theorem new_retains (max fileMax : Nat) {entries : List (Nat × Bytes)} (hnames : (entries.map Prod.fst).Nodup) :
    let l := new max fileMax entries
    let numbers := (entries.map Prod.fst).insertionSort (· ≤ ·)
    numbers.Pairwise (· < ·) ∧ (∀ n ∈ numbers, n ≤ l.seq) ∧ (∃ old own, Retains l.seq numbers entries [] l old own) ∧
      l.max = max ∧ l.fileMax = fileMax ∧ l.total ≤ max := by
  let files := (entries.map (fun e => (e.1, e.2.length))).insertionSort (fun a b => a.1 ≤ b.1)
  let opened : Logger :=
    { max, fileMax, files, total := (files.map Prod.snd).sum, seq := entries.foldl (fun seq e => Nat.max seq e.1) 0,
      file := none, disk := fun n => (entries.find? (fun e => e.1 = n)).map Prod.snd }
  let numbers := (entries.map Prod.fst).insertionSort (· ≤ ·)
  have hfiles : files.map Prod.fst = numbers := by
    rw [List.map_insertionSort (r := fun a b : Nat × Nat => a.1 ≤ b.1) (s := (· ≤ ·)) Prod.fst _
      (fun _ _ _ _ => Iff.rfl), List.map_map]
    rfl
  have hmem : ∀ n, n ∈ numbers ↔ n ∈ entries.map Prod.fst := fun n => List.mem_insertionSort _
  have hsorted : numbers.Pairwise (· < ·) := by
    have hnodup : numbers.Pairwise (· ≠ ·) := (List.perm_insertionSort _ _).nodup_iff.2 hnames
    exact (hnodup.and (List.pairwise_insertionSort (· ≤ ·) (entries.map Prod.fst))).imp
      (fun {a b} h => Nat.lt_of_le_of_ne h.2 h.1)
  have hle : ∀ n ∈ numbers, n ≤ opened.seq := fun n hn => by
    obtain ⟨e, he, rfl⟩ := List.mem_map.1 ((hmem n).1 hn)
    exact (le_foldl_max entries 0).2 e he
  have h : Retains opened.seq numbers entries [] opened files [] := by
    refine ⟨(List.append_nil files).symm, fun f hf => ?_, (fun _ ho => nomatch ho), fun n hn => ?_, rfl, ?_, Nat.le_refl _,
      List.suffix_refl _, (fun _ hp => nomatch hp)⟩
    · refine ⟨hle f.1 (hfiles ▸ List.mem_map_of_mem hf), ?_⟩
      obtain ⟨e, he, rfl⟩ := List.mem_map.1 ((List.mem_insertionSort _).1 hf)
      refine ⟨e.2, he, ?_, rfl⟩
      show (entries.find? (fun x => decide (x.1 = e.1))).map Prod.snd = some e.2
      rw [find_entry hnames e he]
      rfl
    · show (entries.find? (fun x => decide (x.1 = n))).map Prod.snd = none
      rw [List.find?_eq_none.2 (fun e he hx => ?_)]
      · rfl
      · refine hn ?_
        rw [hfiles, hmem, ← of_decide_eq_true hx]
        exact List.mem_map_of_mem he
    · have horder : opened.files.map Prod.fst = numbers ++ List.range' (opened.seq + 1) (opened.seq - opened.seq) := by
        rw [hfiles, Nat.sub_self, List.range'_zero, List.append_nil]
      exact ⟨[], horder⟩
  obtain ⟨hm, hf, hs, -, -, hfit⟩ := roomLoop_spec 0 files opened rfl
  obtain ⟨old, own, h'⟩ := h.roomLoop hsorted hle 0 files rfl
  have hseq : (new max fileMax entries).seq = opened.seq := hs
  dsimp only
  rw [hseq]
  refine ⟨hsorted, hle, ⟨old, own, h'⟩, hm, hf, ?_⟩
  rcases hfit with hfit | hnil
  · exact hfit
  · have htotal := h'.total
    rw [hnil] at htotal
    exact htotal ▸ Nat.zero_le _

end Logger
end Relay
