import GameRelay.Uuid
import Mathlib
/-!
# Head — the head of a request and the bytes behind it (`main.rs`)

`connection` reads until it has seen an empty line, and what it read goes back in front of the socket (`Prefixed`) for the
WebSocket handshake.  **Whoever reads from `Prefixed` gets the client's stream from its first byte**, however the network
and the reader cut it; and a head that ends within 16 KiB is accepted, however it is cut (`stream_is_whole`).
-/
namespace Relay

/-- `b"\\r\\n\\r\\n"`. -/
def emptyLine : Bytes := [13, 10, 13, 10]

/-- `prefix.windows(4).any(|w| w == b"\\r\\n\\r\\n")`. -/
def hasEmptyLine (b : Bytes) : Bool := decide (emptyLine <:+: b)

def headMax : Nat := 16384

inductive Head where
  /-- More is to come. -/
  | waiting (read : Bytes)
  | complete (read : Bytes) (rest : List Bytes)
  | tooLarge
  | ended
  deriving DecidableEq

/-- Read after read, until the head is complete; an empty one is the end of the stream. -/
def readHead (read : Bytes) : List Bytes → Head
  | [] => .waiting read
  | b :: rest =>
    if b = [] then .ended
    else if hasEmptyLine (read ++ b) then .complete (read ++ b) rest
    else if headMax ≤ (read ++ b).length then .tooLarge
    else readHead (read ++ b) rest

structure Prefixed where
  /-- What the socket still holds. -/
  tcp : Bytes
  data : Bytes
  position : Nat

/-- A poll into a buffer of `n` bytes; the socket has `m` of them ready. -/
def Prefixed.pollRead (p : Prefixed) (n m : Nat) : Prefixed × Bytes :=
  if p.position < p.data.length then
    let k := min n (p.data.length - p.position)
    ({ p with position := p.position + k }, (p.data.drop p.position).take k)
  else ({ p with tcp := p.tcp.drop (min n m) }, p.tcp.take (min n m))

/-- What a sequence of polls delivers. -/
def Prefixed.polls (p : Prefixed) : List (Nat × Nat) → Prefixed × Bytes
  | [] => (p, [])
  | (n, m) :: rest =>
    let (p₁, b) := p.pollRead n m
    let (p₂, bs) := p₁.polls rest
    (p₂, b ++ bs)

/-- What is still to be delivered. -/
def Prefixed.left (p : Prefixed) : Bytes := p.data.drop p.position ++ p.tcp

/-! ## The head -/

variable {read p : Bytes} {reads rest : List Bytes}

/-- **Nothing is lost**: what was read and what was not are the stream. -/
theorem readHead_complete : ∀ {reads : List Bytes} {read : Bytes}, readHead read reads = .complete p rest →
    p ++ rest.flatten = read ++ reads.flatten ∧ hasEmptyLine p = true ∧
      ∃ b ∈ reads, ∃ before, p = before ++ b ∧ (before = read ∨ (before.length < headMax ∧ hasEmptyLine before = false))
  | [], read, h => by cases h
  | b :: reads, read, h => by
    unfold readHead at h
    split at h
    · cases h
    split at h
    · rename_i hend
      cases h
      exact ⟨by rw [List.flatten_cons, List.append_assoc], hend, b, List.mem_cons_self, read, rfl, .inl rfl⟩
    rename_i hno
    split at h
    · cases h
    · rename_i hlen
      obtain ⟨hp, hend, c, hc, before, hb, hor⟩ := readHead_complete h
      refine ⟨by rw [hp, List.flatten_cons, List.append_assoc], hend, c, List.mem_cons_of_mem _ hc, before, hb, ?_⟩
      refine .inr (hor.elim (fun he => ?_) id)
      rw [he]
      exact ⟨Nat.lt_of_not_le hlen, eq_false_of_ne_true hno⟩

theorem hasEmptyLine_extended {a b : Bytes} (h : a <+: b) (ha : hasEmptyLine a = true) : hasEmptyLine b = true :=
  decide_eq_true ((of_decide_eq_true ha).trans h.isInfix)

/-- **A head that ends in time is accepted**, however it is cut. -/
theorem readHead_accepts : ∀ {reads : List Bytes} {read : Bytes}, (∀ b ∈ reads, b ≠ []) → hasEmptyLine read = false →
    hasEmptyLine ((read ++ reads.flatten).take headMax) = true → ∃ p rest, readHead read reads = .complete p rest
  | [], read, _, hno, hin => by
    rw [List.flatten_nil, List.append_nil] at hin
    have hread := hasEmptyLine_extended (List.take_prefix headMax read) hin
    rw [hno] at hread
    cases hread
  | b :: reads, read, hne, hno, hin => by
    obtain ⟨hb, htail⟩ := List.forall_mem_cons.1 hne
    unfold readHead
    rw [if_neg hb]
    split
    · exact ⟨_, _, rfl⟩
    · rename_i hnext
      rw [List.flatten_cons, ← List.append_assoc] at hin
      split
      · rename_i hlen
        -- all that counts has been read
        rw [List.take_append_of_le_length hlen] at hin
        exact absurd (hasEmptyLine_extended (List.take_prefix headMax _) hin) hnext
      · exact readHead_accepts htail (eq_false_of_ne_true hnext) hin

/-! ## The stream behind it -/

/-- **A poll delivers the next bytes.** -/
theorem pollRead_left (p : Prefixed) (n m : Nat) :
    (p.pollRead n m).2 ++ (p.pollRead n m).1.left = p.left ∧ (p.pollRead n m).2.length ≤ n := by
  unfold Prefixed.pollRead
  split
  · rename_i hpos
    dsimp only
    refine ⟨?_, (List.length_take_le _ _).trans (Nat.min_le_left _ _)⟩
    show (p.data.drop p.position).take _ ++ (p.data.drop (p.position + _) ++ p.tcp) = p.data.drop p.position ++ p.tcp
    rw [← List.append_assoc, ← List.drop_drop, List.take_append_drop]
  · rename_i hpos
    have hdone : p.data.drop p.position = [] := List.drop_eq_nil_of_le (Nat.le_of_not_lt hpos)
    dsimp only
    refine ⟨?_, (List.length_take_le _ _).trans (Nat.min_le_left _ _)⟩
    show p.tcp.take _ ++ (p.data.drop p.position ++ p.tcp.drop _) = p.data.drop p.position ++ p.tcp
    rw [hdone, List.nil_append, List.nil_append, List.take_append_drop]

theorem polls_left : ∀ (l : List (Nat × Nat)) (p : Prefixed), (p.polls l).2 ++ (p.polls l).1.left = p.left
  | [], _ => rfl
  | (n, m) :: l, p => by
    show (p.pollRead n m).2 ++ ((p.pollRead n m).1.polls l).2 ++ ((p.pollRead n m).1.polls l).1.left = p.left
    rw [List.append_assoc, polls_left l, (pollRead_left p n m).1]

/-- A poll with room delivers something while there is something ready. -/
theorem pollRead_progress (p : Prefixed) {n m : Nat} (hn : 0 < n) (hm : 0 < m) (h : p.left ≠ []) :
    (p.pollRead n m).2 ≠ [] := by
  unfold Prefixed.pollRead
  split
  · rename_i hpos
    dsimp only
    intro hnil
    have hlen := congrArg List.length hnil
    rw [List.length_take, List.length_drop, List.length_nil] at hlen
    omega
  · rename_i hpos
    have hdone : p.data.drop p.position = [] := List.drop_eq_nil_of_le (Nat.le_of_not_lt hpos)
    dsimp only
    intro hnil
    refine h ?_
    rcases List.take_eq_nil_iff.1 hnil with hz | hz
    · omega
    · rw [Prefixed.left, hdone, hz]
      rfl

/-- **The stream behind a head is whole.**  A stream comes in reads of at most 4 KiB.  If its first empty line ends within
16 KiB, its head is accepted.  Whenever one is, less than 20 KiB were read for it, and polls of any sizes deliver the
stream from its first byte, nothing twice and nothing left out, and something at each poll while something is left. -/
theorem stream_is_whole {reads : List Bytes} (hreads : ∀ b ∈ reads, b ≠ [] ∧ b.length ≤ 4096) :
    (hasEmptyLine (reads.flatten.take headMax) = true → ∃ p rest, readHead [] reads = .complete p rest) ∧
    ∀ p rest, readHead [] reads = .complete p rest →
      hasEmptyLine p = true ∧ p.length < headMax + 4096 ∧
      ∀ polls : List (Nat × Nat), ∃ q, q = Prefixed.polls ⟨rest.flatten, p, 0⟩ polls ∧ q.2 ++ q.1.left = reads.flatten ∧
        ∀ n m, 0 < n → 0 < m → q.1.left ≠ [] → (q.1.pollRead n m).2 ≠ [] := by
  refine ⟨fun h => readHead_accepts (fun b hb => (hreads b hb).1) (by decide) h, fun p rest h => ?_⟩
  obtain ⟨hstream, hend, b, hb, before, rfl, hbefore⟩ := readHead_complete h
  have hlen : before.length < headMax := by
    rcases hbefore with rfl | ⟨hlt, -⟩
    · decide
    · exact hlt
  refine ⟨hend, ?_, fun polls => ⟨_, rfl, ?_, fun n m hn hm hl => pollRead_progress _ hn hm hl⟩⟩
  · rw [List.length_append]
    have hle := (hreads b hb).2
    omega
  · rw [polls_left, Prefixed.left, List.drop_zero, hstream, List.nil_append]

theorem stream_is_whole_cut :
    let reads : List Bytes := [[71, 13, 10], [13, 10, 1], [2]]
    ∃ p rest, readHead [] reads = .complete p rest ∧
      ∃ q, q = Prefixed.polls ⟨rest.flatten, p, 0⟩ [(4, 9), (4, 9)] ∧ q.2 ++ q.1.left = reads.flatten := by
  intro reads
  have hwhole := stream_is_whole (show ∀ b ∈ reads, b ≠ [] ∧ b.length ≤ 4096 by decide)
  obtain ⟨p, rest, h⟩ := hwhole.1 (by decide)
  obtain ⟨q, hq, hleft, -⟩ := (hwhole.2 p rest h).2.2 [(4, 9), (4, 9)]
  exact ⟨p, rest, h, q, hq, hleft⟩

end Relay
