import GameRelay.Telemetry
/-!
# Backoff — when telemetry posts (`telemetry.rs`)

`settle` says when the next post may be.  Over a run, `streak` is how many posts failed one after the other up to now, and
`pause` how long the last post holds the next one back; the two fields of the state are these (`Paced`), so
**a post is due just when the pause is over** (`posts_are_paced`).
-/
namespace Relay
namespace Telemetry

/-- A post and its outcome: the time when it was over, and its status. -/
abbrev Post := Nat × Option Nat

/-- The post was neither accepted nor refused for good. -/
def failed (p : Post) : Bool := !success p.2 && !clientError p.2

/-- How many posts failed up to now, without one that did not. -/
def streak (log : List Post) : Nat := (log.reverse.takeWhile failed).length

/-- How long a post holds back the next one: a minute when it was refused; after the `n`-th failure in a row a second,
doubled each time, up to five minutes. -/
def pause (log : List Post) : Nat :=
  match log.getLast? with
  | none => 0
  | some p =>
    if success p.2 then 0 else if clientError p.2 then p.1 + 60000
    else p.1 + min (1000 * 2 ^ (min (streak log) 10 - 1)) 300000

variable (num : Number → String)

/-- The post a call makes, if any. -/
def Trail.posted (r : Trail) : Call → List Post
  | .enqueue .. => []
  | .flush now later force response => ((r.now.flush num now later force response).2.map (fun _ => (later, response))).toList

/-- The posts of a run. -/
def Trail.log (r : Trail) : List Call → List Post
  | [] => []
  | c :: calls => r.posted num c ++ (r.step num c).log calls

theorem streak_append (log : List Post) (p : Post) : streak (log ++ [p]) = if failed p then streak log + 1 else 0 := by
  unfold streak
  rw [List.reverse_append, List.reverse_singleton, List.singleton_append, List.takeWhile_cons]
  split <;> rfl

/-- **The state says when the next post may be.** -/
structure Paced (t : Telemetry) (log : List Post) : Prop where
  failures : t.failures = min (streak log) 10
  next : t.next = pause log

theorem Paced.settle {t : Telemetry} {log : List Post} (h : Paced t log) (batch : List Value) (later : Nat)
    (response : Option Nat) : Paced (t.settle batch later response) (log ++ [(later, response)]) := by
  have hlast : (log ++ [(later, response)]).getLast? = some (later, response) := List.getLast?_concat
  have hstreak := streak_append log (later, response)
  unfold Telemetry.settle
  split
  · rename_i hs
    rw [failed, hs, Bool.not_true, Bool.false_and, if_neg Bool.false_ne_true] at hstreak
    refine ⟨by rw [hstreak]; rfl, ?_⟩
    unfold pause
    rw [hlast]
    exact (if_pos hs).symm
  · rename_i hs
    split
    · rename_i hc
      rw [failed, hc, Bool.not_true, Bool.and_false, if_neg Bool.false_ne_true] at hstreak
      refine ⟨by rw [hstreak]; rfl, ?_⟩
      unfold pause
      rw [hlast]
      dsimp only
      rw [if_neg hs, if_pos hc]
    · rename_i hc
      have hfailed : failed (later, response) = true := by
        rw [failed, eq_false_of_ne_true hs, eq_false_of_ne_true hc]
        rfl
      rw [if_pos hfailed] at hstreak
      have hfailures : min (t.failures + 1) 10 = min (streak (log ++ [(later, response)])) 10 := by
        rw [hstreak, h.failures]
        omega
      refine ⟨hfailures, ?_⟩
      unfold pause
      rw [hlast]
      dsimp only
      rw [if_neg hs, if_neg hc, ← hfailures]
      rfl

/-- **Each call keeps the pace.** -/
theorem Paced.step {r : Trail} {log : List Post} (h : Paced r.now log) (c : Call) :
    Paced (r.step num c).now (log ++ r.posted num c) := by
  cases c with
  | enqueue id timestamp name properties =>
    rw [show r.posted num (.enqueue id timestamp name properties) = [] from rfl, List.append_nil]
    exact ⟨h.failures, h.next⟩
  | flush now later force response =>
    unfold Trail.step Trail.posted
    dsimp only
    rcases flush_cases num r.now now later force response with ⟨hf, -⟩ | ⟨front, rest, -, -, -, -, hf⟩
    · rw [hf, Option.map_none, Option.toList_none, List.append_nil]
      exact h
    · rw [hf]
      have h' : Paced { r.now with queue := rest } log := ⟨h.failures, h.next⟩
      exact h'.settle front later response

theorem Paced.run : ∀ (calls : List Call) {r : Trail} {log : List Post}, Paced r.now log →
    Paced (r.run num calls).now (log ++ r.log num calls)
  | [], _, log, h => by rw [Trail.log, List.append_nil]; exact h
  | c :: calls, r, log, h => by
    rw [Trail.log, ← List.append_assoc]
    exact Paced.run calls (h.step num c)

theorem Paced.start {project release os session : String} {t : Telemetry}
    (h : new project release os session = some t) : Paced t [] := by
  unfold new at h
  split at h
  · obtain rfl := Option.some.inj h
    exact ⟨rfl, rfl⟩
  · cases h

/-- A flush posts just when it has something to post and may. -/
theorem flush_posts_iff (t : Telemetry) (now later : Nat) (force : Bool) (response : Option Nat) :
    (t.flush num now later force response).2.isSome = true ↔ t.queue ≠ [] ∧ (force = true ∨ t.next ≤ now) := by
  unfold flush
  split
  · rename_i h
    rw [Bool.or_eq_true, Bool.and_eq_true, List.isEmpty_iff, Bool.not_eq_true', decide_eq_true_eq] at h
    refine ⟨fun hs => absurd hs Bool.false_ne_true, fun hp => ?_⟩
    rcases h with h | ⟨hforce, hnow⟩
    · exact absurd h hp.1
    · rcases hp.2 with hf | hn
      · rw [hforce] at hf
        cases hf
      · omega
  · rename_i h
    rw [Bool.or_eq_true, Bool.and_eq_true, List.isEmpty_iff, Bool.not_eq_true', decide_eq_true_eq, not_or, not_and] at h
    refine ⟨fun _ => ⟨h.1, ?_⟩, fun _ => rfl⟩
    cases force with
    | true => exact .inl rfl
    | false => exact .inr (Nat.le_of_not_lt (h.2 rfl))

/-- **A post is due just when the pause is over.**  Over any calls: a flush posts exactly if there is something to post
and it is forced or the pause of the last post is over.  There is none at first and after a post that was accepted, one of
a minute after one that was refused; failures in a row double it from a second, up to five minutes. -/
theorem posts_are_paced {project release os session : String} {t : Telemetry}
    (hnew : new project release os session = some t) (calls : List Call) :
    let r := Trail.run num { now := t } calls
    let log := Trail.log num { now := t } calls
    (∀ now later force response, (r.now.flush num now later force response).2.isSome = true ↔
      r.now.queue ≠ [] ∧ (force = true ∨ pause log ≤ now)) ∧
    (log = [] → pause log = 0) ∧
    ∀ before p, log = before ++ [p] →
      (success p.2 = true → pause log = 0) ∧
      (success p.2 = false → clientError p.2 = true → pause log = p.1 + 60000) ∧
      (failed p = true → streak log = streak before + 1 ∧
        (streak log ≤ 9 → pause log = p.1 + 1000 * 2 ^ (streak log - 1)) ∧
        (9 < streak log → pause log = p.1 + 300000)) := by
  intro r log
  have h : Paced r.now log := Paced.run num calls (r := { now := t }) (Paced.start hnew)
  refine ⟨fun now later force response => ?_, fun hnil => by rw [hnil]; rfl, fun before p hlog => ?_⟩
  · rw [flush_posts_iff, h.next]
  · have hlast : log.getLast? = some p := by rw [hlog]; exact List.getLast?_concat
    have hstreak : streak log = if failed p then streak before + 1 else 0 := by rw [hlog]; exact streak_append before p
    unfold pause
    rw [hlast]
    dsimp only
    refine ⟨fun hs => if_pos hs, fun hs hc => ?_, fun hf => ?_⟩
    · rw [if_neg (by rw [hs]; decide), if_pos hc]
    · rw [if_pos hf] at hstreak
      rw [failed, Bool.and_eq_true, Bool.not_eq_true', Bool.not_eq_true'] at hf
      rw [if_neg (by rw [hf.1]; decide), if_neg (by rw [hf.2]; decide)]
      refine ⟨hstreak, fun hle => ?_, fun hgt => ?_⟩
      · have hpow : 2 ^ (streak log - 1) ≤ 2 ^ 8 := Nat.pow_le_pow_right (by decide) (by omega)
        rw [show min (streak log) 10 = streak log by omega]
        omega
      · rw [show min (streak log) 10 = 10 by omega]
        rfl

/-- Two posts that failed. -/
def failing : List Call := [.enqueue "first" "" "server.metrics" .null, .flush 0 5 false none, .flush 1005 1010 false (some 503)]

/-- They hold back the third for two seconds. -/
theorem posts_are_paced_failing :
    ∃ t, new "no-logic" "1.0.0" "linux" "session" = some t ∧ pause (Trail.log (fun _ => "0") { now := t } failing) = 3010 ∧
      ((Trail.run (fun _ => "0") { now := t } failing).now.flush (fun _ => "0") 3009 3010 false (some 204)).2.isSome = false := by
  refine ⟨_, rfl, by decide +kernel, eq_false_of_ne_true (fun h => ?_)⟩
  have hpaced := (posts_are_paced (fun _ => "0") (show new "no-logic" "1.0.0" "linux" "session" = some _ from rfl) failing).1
  rcases ((hpaced 3009 3010 false (some 204)).1 h).2 with hf | hle
  · cases hf
  · exact absurd hle (by decide +kernel)

end Telemetry
end Relay
