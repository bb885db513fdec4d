import Mathlib
import GameRelay.Trace
/-!
# Disk — the session directory across crashes (`Store::atomic`, `Store::path`, the scans of `Store::new` and `prune`)

A save writes a temporary file and renames it over the final one, operation by operation; a process that dies, or an
operation that fails, leaves any prefix of them done, and the next process finds the disk so.  Final files are only ever
whole: `Action.final` is what one action does to a final path, and `files_are_whole` follows it along any sequence.
-/
namespace Relay

open Function (update)

inductive Folder where
  | rooms
  | accounts
  | notifications
  deriving DecidableEq

def Folder.extension : Folder → String
  | .rooms => "bin"
  | _ => "json"

/-- A file of the session directory. -/
structure FileName where
  folder : Folder
  name : String
  deriving DecidableEq

/-- The last dot of a file name, with what stands before it and after it. -/
def lastDot : List Char → Option (List Char × List Char)
  | [] => none
  | c :: cs =>
    match lastDot cs with
    | some (b, a) => some (c :: b, a)
    | none => if c = '.' then some ([], cs) else none

/-- `Path::extension` and `Path::file_stem`: a name that starts with its only dot has no extension. -/
def splitExtension (name : String) : String × Option String :=
  match lastDot name.toList with
  | some (c :: b, a) => (String.ofList (c :: b), some (String.ofList a))
  | _ => (name, none)

namespace FileName

/-- `Store::path`. -/
def path (folder : Folder) (id : String) : Option FileName :=
  if isUuid id then some ⟨folder, lowerText id ++ "." ++ folder.extension⟩ else none

/-- The file `atomic` writes before it renames it. -/
def tmp (n : FileName) : FileName := { n with name := n.name ++ ".tmp" }

/-- The identifier under which a scan of the folder takes the file up. -/
def scanned (n : FileName) : Option String :=
  match splitExtension n.name with
  | (stem, some ext) => if ext = n.folder.extension && isUuid stem then some stem else none
  | (_, none) => none

end FileName

abbrev Disk := FileName → Option Bytes

namespace Disk

/-- One operation on files. -/
inductive Op where
  | create (n : FileName)
  | write (n : FileName) (b : Bytes)
  | sync (n : FileName)
  | rename (source target : FileName)
  | unlink (n : FileName)

def Op.apply (d : Disk) : Op → Disk
  | .create n => update d n (some [])
  | .write n b => update d n ((d n).map (· ++ b))
  | .sync _ => d
  | .rename source target =>
    match d source with
    | none => d
    | some b => update (update d source none) target (some b)
  | .unlink n => update d n none

/-- The operations of `atomic`, with the bytes as they are written. -/
def atomic (n : FileName) (writes : List Bytes) : List Op :=
  .create n.tmp :: (writes.map (.write n.tmp) ++ [.sync n.tmp, .rename n.tmp n])

variable [Extern]

/-- A room, an account or a job list that is saved. -/
inductive Save where
  | room (r : Room)
  | account (p : Player)
  | jobs (id : String) (l : List Value)

def Save.path : Save → Option FileName
  | .room r => FileName.path .rooms r.id
  | .account p => FileName.path .accounts p.id
  | .jobs id _ => FileName.path .notifications id

/-- The parts `save`, `save_account` and `set_jobs` hand to `atomic`. -/
def Save.parts : Save → List Bytes
  | .room r => [u32Bytes (Store.headerLen r.header), Extern.toVec r.header, r.state]
  | .account p => [Extern.toVec (Store.accountFile p)]
  | .jobs _ l => [Extern.toVec (.arr l)]

def Save.content (s : Save) : Bytes := s.parts.flatten

/-- A save or the removal of a file, of which only the first `steps` operations come to pass: the process dies, or the
next operation fails.  `writes` are the writes the parts are written in. -/
inductive Action where
  | save (s : Save) (writes : List Bytes) (steps : Nat)
  | remove (folder : Folder) (id : String) (steps : Nat)

/-- All operations of the action. -/
def Action.ops : Action → List Op
  | .save s writes _ =>
    match s.path with
    | some n => atomic n writes
    | none => []
  | .remove folder id _ =>
    match FileName.path folder id with
    | some n => [.unlink n]
    | none => []

def Action.steps : Action → Nat
  | .save _ _ steps => steps
  | .remove _ _ steps => steps

/-- The writes of a save are its parts, cut anywhere. -/
def Action.Valid : Action → Prop
  | .save s writes _ => writes.flatten = s.content
  | .remove _ _ _ => True

def Action.run (d : Disk) (a : Action) : Disk := (a.ops.take a.steps).foldl Op.apply d

/-- The action saves this under the path, every operation of it done. -/
def Action.Saves (a : Action) (n : FileName) (s : Save) : Prop :=
  ∃ writes, a = .save s writes a.steps ∧ s.path = some n ∧ a.ops.length ≤ a.steps

/-- The action removed the file of the path. -/
def Action.Removes (a : Action) (n : FileName) : Prop :=
  ∃ folder id, a = .remove folder id a.steps ∧ FileName.path folder id = some n ∧ 1 ≤ a.steps

end Disk

/-! Names. -/

theorem lastDot_none : ∀ {cs : List Char}, '.' ∉ cs → lastDot cs = none
  | [], _ => rfl
  | c :: cs, h => by
    rw [List.mem_cons, not_or] at h
    unfold lastDot
    rw [lastDot_none h.2]
    exact if_neg (Ne.symm h.1)

theorem lastDot_append {ext : List Char} (h : '.' ∉ ext) : ∀ cs : List Char,
    lastDot (cs ++ '.' :: ext) = some (cs, ext)
  | [] => by
    rw [List.nil_append, lastDot, lastDot_none h]
    rfl
  | c :: cs => by
    rw [List.cons_append, lastDot, lastDot_append h cs]

namespace FileName

/-- **No scan takes up a temporary file.** -/
theorem scanned_tmp (n : FileName) : n.tmp.scanned = none := by
  have hdot : lastDot n.tmp.name.toList = some (n.name.toList, ['t', 'm', 'p']) := by
    show lastDot (n.name ++ ".tmp").toList = _
    rw [String.toList_append]
    exact lastDot_append (by decide) _
  unfold scanned splitExtension
  rw [hdot]
  cases n.name.toList with
  | nil => rfl
  | cons c cs =>
    have hext : ¬ String.ofList ['t', 'm', 'p'] = n.folder.extension := by cases n.folder <;> decide
    dsimp only
    rw [show n.tmp.folder = n.folder from rfl, decide_eq_false hext, Bool.false_and]
    rfl

/-- **A path is no temporary file's.** -/
theorem path_ne_tmp {folder : Folder} {id : String} {n : FileName} (h : path folder id = some n) (m : FileName) :
    n ≠ m.tmp := by
  unfold path at h
  split at h
  · cases h
    intro he
    -- the names end in different letters
    have hlast := congrArg (fun f : FileName => f.name.toList.getLast?) he
    have htmp : m.tmp.name.toList.getLast? = some 'p' := by
      show (m.name ++ ".tmp").toList.getLast? = _
      rw [String.toList_append, List.getLast?_append]
      rfl
    have hpath : (lowerText id ++ "." ++ folder.extension).toList.getLast? = some 'n' := by
      rw [String.toList_append, List.getLast?_append]
      cases folder <;> rfl
    rw [htmp, hpath] at hlast
    exact absurd hlast (by decide)
  · cases h

end FileName

namespace Disk

/-! Operations. -/

/-- The operation changes no file but this. -/
def Op.Only (n : FileName) (o : Op) : Prop := ∀ d m, m ≠ n → o.apply d m = d m

theorem foldl_only {n m : FileName} (hm : m ≠ n) : ∀ {l : List Op}, (∀ o ∈ l, o.Only n) → ∀ d : Disk,
    l.foldl Op.apply d m = d m
  | [], _, _ => rfl
  | o :: l, h, d => by
    rw [List.foldl_cons, foldl_only hm (fun o' ho => h o' (List.mem_cons_of_mem _ ho))]
    exact h o List.mem_cons_self d m hm

theorem foldl_write (n : FileName) : ∀ (writes : List Bytes) (d : Disk) (b : Bytes), d n = some b →
    (writes.map (Op.write n)).foldl Op.apply d n = some (b ++ writes.flatten)
  | [], d, b, h => by
    rw [List.flatten_nil, List.append_nil]
    exact h
  | w :: writes, d, b, h => by
    rw [List.map_cons, List.foldl_cons, foldl_write n writes _ (b ++ w), List.flatten_cons, List.append_assoc]
    show update d n _ n = _
    rw [Function.update_self, h]
    rfl

/-- The operations of `atomic` before the rename. -/
def beforeRename (n : FileName) (writes : List Bytes) : List Op :=
  .create n.tmp :: (writes.map (.write n.tmp) ++ [.sync n.tmp])

theorem atomic_eq (n : FileName) (writes : List Bytes) :
    atomic n writes = beforeRename n writes ++ [.rename n.tmp n] := by
  unfold atomic beforeRename
  rw [List.cons_append, List.append_assoc]
  rfl

theorem beforeRename_only {n : FileName} {writes : List Bytes} : ∀ o ∈ beforeRename n writes, o.Only n.tmp := by
  intro o ho
  rcases List.mem_cons.1 ho with rfl | ho
  · exact fun d m hm => Function.update_of_ne hm _ _
  rcases List.mem_append.1 ho with ho | ho
  · obtain ⟨w, -, rfl⟩ := List.mem_map.1 ho
    exact fun d m hm => Function.update_of_ne hm _ _
  · obtain rfl := List.mem_singleton.1 ho
    exact fun d m _ => rfl

/-- Whatever a temporary file held before, it is the parts once they are written. -/
theorem beforeRename_tmp (n : FileName) (writes : List Bytes) (d : Disk) :
    (beforeRename n writes).foldl Op.apply d n.tmp = some writes.flatten := by
  unfold beforeRename
  rw [List.foldl_cons, List.foldl_append]
  show (writes.map (Op.write n.tmp)).foldl Op.apply (update d n.tmp (some [])) n.tmp = _
  rw [foldl_write n.tmp writes _ [] (Function.update_self ..), List.nil_append]

/-- **A final file changes at the rename only, and then to all that was written.** -/
theorem atomic_final {n m : FileName} (hm : m ≠ n.tmp) (writes : List Bytes) (k : Nat) (d : Disk) :
    ((atomic n writes).take k).foldl Op.apply d m =
      if (atomic n writes).length ≤ k ∧ m = n then some writes.flatten else d m := by
  by_cases hk : (atomic n writes).length ≤ k
  · rw [List.take_of_length_le hk, atomic_eq, List.foldl_append, List.foldl_cons, List.foldl_nil]
    show (match (beforeRename n writes).foldl Op.apply d n.tmp with
      | none => (beforeRename n writes).foldl Op.apply d
      | some b => update (update ((beforeRename n writes).foldl Op.apply d) n.tmp none) n (some b)) m = _
    rw [beforeRename_tmp]
    dsimp only
    by_cases hmn : m = n
    · subst hmn
      rw [Function.update_self, if_pos ⟨by rw [← atomic_eq]; exact hk, rfl⟩]
    · rw [Function.update_of_ne hmn, Function.update_of_ne hm, foldl_only hm beforeRename_only,
        if_neg (fun h => hmn h.2)]
  · have hlen : (atomic n writes).length = (beforeRename n writes).length + 1 := by
      rw [atomic_eq, List.length_append]
      rfl
    rw [if_neg (fun h => hk h.1), atomic_eq, List.take_append_of_le_length (by omega)]
    exact foldl_only hm (fun o ho => beforeRename_only o (List.mem_of_mem_take ho)) d

variable [Extern]

/-- **What an action does to a final path**: it saves there in full, removes the file, or leaves it as it is. -/
theorem Action.final {a : Action} (hv : a.Valid) {folder : Folder} {id : String} {n : FileName}
    (hn : FileName.path folder id = some n) (d : Disk) :
    (∃ s, a.Saves n s ∧ a.run d n = some s.content) ∨ (a.Removes n ∧ a.run d n = none) ∨
      ((∀ s, ¬ a.Saves n s) ∧ ¬ a.Removes n ∧ a.run d n = d n) := by
  cases a with
  | save s writes steps =>
    have hnone : ¬ Action.Removes (.save s writes steps) n := fun ⟨_, _, h, _⟩ => by cases h
    cases hp : s.path with
    | none =>
      refine .inr (.inr ⟨fun s' ⟨_, h, hs', _⟩ => ?_, hnone, ?_⟩)
      · cases h
        rw [hp] at hs'
        cases hs'
      · show ((Action.ops (.save s writes steps)).take steps).foldl Op.apply d n = d n
        rw [show Action.ops (.save s writes steps) = [] by simp only [Action.ops, hp], List.take_nil]
        rfl
    | some m =>
      have hops : Action.ops (.save s writes steps) = atomic m writes := by simp only [Action.ops, hp]
      have hrun : Action.run d (.save s writes steps) n = if (atomic m writes).length ≤ steps ∧ n = m then
          some writes.flatten else d n := by
        show ((Action.ops (.save s writes steps)).take steps).foldl Op.apply d n = _
        rw [hops]
        exact atomic_final (FileName.path_ne_tmp hn m) writes steps d
      by_cases hdone : (atomic m writes).length ≤ steps ∧ n = m
      · obtain ⟨hlen, rfl⟩ := hdone
        refine .inl ⟨s, ⟨writes, rfl, hp, hops ▸ hlen⟩, ?_⟩
        rw [hrun, if_pos ⟨hlen, rfl⟩]
        exact congrArg some hv
      · refine .inr (.inr ⟨fun s' ⟨_, h, hs', hlen⟩ => hdone ?_, hnone, by rw [hrun, if_neg hdone]⟩)
        cases h
        rw [hp] at hs'
        cases hs'
        exact ⟨hops ▸ hlen, rfl⟩
  | remove folder' id' steps =>
    have hnone : ∀ s, ¬ Action.Saves (.remove folder' id' steps) n s := fun s ⟨_, h, _⟩ => by cases h
    cases hp : FileName.path folder' id' with
    | none =>
      refine .inr (.inr ⟨hnone, fun ⟨_, _, h, hs', _⟩ => ?_, ?_⟩)
      · cases h
        rw [hp] at hs'
        cases hs'
      · show ((Action.ops (.remove folder' id' steps)).take steps).foldl Op.apply d n = d n
        rw [show Action.ops (.remove folder' id' steps) = [] by simp only [Action.ops, hp], List.take_nil]
        rfl
    | some m =>
      have hrun : Action.run d (.remove folder' id' steps) = ([Op.unlink m].take steps).foldl Op.apply d := by
        show ((Action.ops (.remove folder' id' steps)).take steps).foldl Op.apply d = _
        rw [show Action.ops (.remove folder' id' steps) = [.unlink m] by simp only [Action.ops, hp]]
      by_cases hdone : 1 ≤ steps ∧ n = m
      · obtain ⟨hlen, rfl⟩ := hdone
        refine .inr (.inl ⟨⟨folder', id', rfl, hp, hlen⟩, ?_⟩)
        rw [hrun, List.take_of_length_le (show [Op.unlink n].length ≤ steps from hlen)]
        exact Function.update_self ..
      · refine .inr (.inr ⟨hnone, fun ⟨_, _, h, hs', hlen⟩ => hdone ?_, ?_⟩)
        · cases h
          rw [hp] at hs'
          cases hs'
          exact ⟨hlen, rfl⟩
        · rw [hrun]
          cases steps with
          | zero => rfl
          | succ k =>
            rw [List.take_succ_cons, List.take_nil]
            exact Function.update_of_ne (fun he => hdone ⟨Nat.succ_pos k, he⟩) _ _

/-! Sequences of actions. -/

/-- The disk after the actions, whichever process made them. -/
def after (d : Disk) (acts : List Action) : Disk := acts.foldl Action.run d

section

variable {d : Disk} {folder : Folder} {id : String} {n : FileName} (hn : FileName.path folder id = some n)

include hn

/-- **A final path holds what some action saved there in full, or nothing.** -/
theorem after_whole (hd : d n = none) {acts : List Action} (hv : ∀ a ∈ acts, a.Valid) :
    after d acts n = none ∨ ∃ a ∈ acts, ∃ s, a.Saves n s ∧ after d acts n = some s.content := by
  induction acts using List.reverseRecOn with
  | nil => exact .inl hd
  | append_singleton acts a ih =>
    have hrun : after d (acts ++ [a]) n = a.run (after d acts) n := by
      unfold after
      rw [List.foldl_append]
      rfl
    rw [hrun]
    rcases Action.final (hv a (List.mem_append_right _ (List.mem_singleton_self a))) hn (after d acts) with
      ⟨s, hs, he⟩ | ⟨-, he⟩ | ⟨-, -, he⟩
    · exact .inr ⟨a, List.mem_append_right _ (List.mem_singleton_self a), s, hs, he⟩
    · exact .inl he
    · rw [he]
      rcases ih (fun b hb => hv b (List.mem_append_left _ hb)) with h | ⟨b, hb, s, hs, h⟩
      · exact .inl h
      · exact .inr ⟨b, List.mem_append_left _ hb, s, hs, h⟩

/-- **After a save in full the path holds that save or a later one**, until the file is removed. -/
theorem after_fresh {pre post : List Action} {a : Action} {s : Save} (ha : a.Saves n s)
    (hv : ∀ b ∈ pre ++ a :: post, b.Valid) (hkept : ∀ b ∈ post, ¬ b.Removes n) :
    ∃ b ∈ a :: post, ∃ s', b.Saves n s' ∧ after d (pre ++ a :: post) n = some s'.content := by
  induction post using List.reverseRecOn with
  | nil =>
    have hrun : after d (pre ++ [a]) n = a.run (after d pre) n := by
      unfold after
      rw [List.foldl_append]
      rfl
    rw [hrun]
    rcases Action.final (hv a (List.mem_append_right _ List.mem_cons_self)) hn (after d pre) with
      ⟨s', hs', he⟩ | ⟨hr, -⟩ | ⟨hnot, -, -⟩
    · exact ⟨a, List.mem_cons_self, s', hs', he⟩
    · obtain ⟨_, hsave, -⟩ := ha
      obtain ⟨_, _, hremove, -⟩ := hr
      rw [hsave] at hremove
      cases hremove
    · exact absurd ha (hnot s)
  | append_singleton post b ih =>
    have hrun : after d (pre ++ a :: (post ++ [b])) n = b.run (after d (pre ++ a :: post)) n := by
      unfold after
      rw [← List.cons_append, ← List.append_assoc, List.foldl_append]
      rfl
    rw [hrun]
    have hb : b ∈ pre ++ a :: (post ++ [b]) := by simp
    rcases Action.final (hv b hb) hn (after d (pre ++ a :: post)) with ⟨s', hs', he⟩ | ⟨hr, -⟩ | ⟨-, -, he⟩
    · exact ⟨b, by simp, s', hs', he⟩
    · exact absurd hr (hkept b (by simp))
    · obtain ⟨c, hc, s', hs', h⟩ := ih (fun c hc => hv c (by
        rw [← List.cons_append, ← List.append_assoc]
        exact List.mem_append_left _ hc)) (fun c hc => hkept c (List.mem_append_left _ hc))
      rw [he]
      exact ⟨c, by rw [← List.cons_append]; exact List.mem_append_left _ hc, s', hs', h⟩

end

/-- **Crashes leave whole files.**  After any saves and removals, each cut short anywhere, over any temporary files left
behind before: a final path holds nothing or what one save of it wrote in full, no older than the last save of it that
was done and not removed since; and no temporary file is on a path, or is taken up by a scan. -/
theorem files_are_whole {d : Disk} {acts : List Action} (hd : ∀ folder id n, FileName.path folder id = some n → d n = none)
    (hv : ∀ a ∈ acts, a.Valid) :
    (∀ folder id n, FileName.path folder id = some n →
      (after d acts n = none ∨ ∃ a ∈ acts, ∃ s, a.Saves n s ∧ after d acts n = some s.content) ∧
      ∀ pre a post s, acts = pre ++ a :: post → a.Saves n s → (∀ b ∈ post, ¬ b.Removes n) →
        ∃ b ∈ a :: post, ∃ s', b.Saves n s' ∧ after d acts n = some s'.content) ∧
    ∀ n : FileName, n.tmp.scanned = none ∧ ∀ folder id, FileName.path folder id ≠ some n.tmp := by
  refine ⟨fun folder id n hn => ⟨after_whole hn (hd folder id n hn) hv, fun pre a post s he ha hkept => ?_⟩,
    fun n => ⟨n.scanned_tmp, fun folder id h => FileName.path_ne_tmp h n rfl⟩⟩
  subst he
  exact after_fresh hn ha hv hkept

omit [Extern] in
theorem files_are_whole_retried :
    letI := Extern.reading []
    let s := Save.jobs Trace.room [.null]
    ∃ n, s.path = some n ∧
      after (fun _ => none) [.save s s.parts 2, .save s s.parts 4] n = some s.content := by
  let _ := Extern.reading []
  let s := Save.jobs Trace.room [.null]
  have hp : FileName.path .notifications Trace.room =
      some ⟨.notifications, lowerText Trace.room ++ "." ++ Folder.notifications.extension⟩ := if_pos (by decide +kernel)
  have hvalid : ∀ a ∈ [Action.save s s.parts 2, .save s s.parts 4], a.Valid := fun a ha => by
    rcases List.mem_cons.1 ha with rfl | ha
    · rfl
    · obtain rfl := List.mem_singleton.1 ha
      rfl
  obtain ⟨-, hfresh⟩ := (files_are_whole (d := fun _ => none) (fun _ _ _ _ => rfl) hvalid).1 .notifications
    Trace.room _ hp
  have hlen : (Action.ops (.save s s.parts 4)).length ≤ 4 := by
    simp only [Action.ops, s, Save.path, hp]
    exact Nat.le_refl 4
  obtain ⟨b, hb, s', ⟨_, hsave, -, -⟩, h⟩ := hfresh [.save s s.parts 2] (.save s s.parts 4) [] s rfl
    ⟨_, rfl, hp, hlen⟩ (fun _ h => nomatch h)
  obtain rfl := List.mem_singleton.1 hb
  cases hsave
  exact ⟨_, hp, h⟩

end Disk
end Relay
