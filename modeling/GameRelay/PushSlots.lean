import GameRelay.Registrations
import GameRelay.Backlog
/-!
# PushSlots — no push slot leaks

A command counts a push as it queues it (`step_raises`), the provider's answer gives the slot back, and nothing else
touches the count; hence **it is the number of pushes queued or under way, in every state of the service**
(`push_slots_never_leak`).
-/
namespace Relay

variable [Extern]

namespace Server

theorem runDelayed_raises (env : Env) : ∀ (ds : List Delayed) (s : Server), (runDelayed env ds s).All s.Raises
  | [], s => .refl s
  | d :: ds, s => by
    unfold runDelayed
    split
    · exact runDelayed_raises env ds { s with delayed := s.delayed ++ [d] }
    split
    · exact runDelayed_raises env ds s
    rename_i c _
    dsimp only
    split
    · refine Out.all_andThen (P := s.Raises) ?_ (fun t ht => ?_) (fun _ ht => ht)
      · exact (counts_dispatch env _ d.cid d.frame none).mono (fun t ht => ht.pushes)
      · exact (runDelayed_raises env ds t).mono (fun u hu => ht.trans hu)
    · exact runDelayed_raises env ds (s.setConnection d.cid (unqueue d c))

/-- **A command counts the pushes it queues.** -/
theorem step_raises {env : Env} {s t : Server} {c : Command} (h : s.step env c = some t) : s.Raises t := by
  by_cases hc : c = .sweep
  · subst hc
    obtain ⟨u, hu, hcounts⟩ := sweep_counts h
    have hrun := Out.all_of_state (runDelayed_raises env s.delayed { s with delayed := [] }) (by rw [hu]; rfl)
    exact Raises.trans (t := u) hrun hcounts.pushes
  · rcases command_counts hc h with ⟨cid, -, -, rfl⟩ | hcounts | ⟨cid, frame, -, hq⟩
    · exact .refl s
    · exact hcounts.pushes
    · exact ⟨[], by rw [hq.pushes.1, List.append_nil], hq.pushes.2, .inl rfl⟩

/-- The queue of pushes and their count stay. -/
def SamePushes (s t : Server) : Prop := t.legacyPushes = s.legacyPushes ∧ t.pushesInFlight = s.pushesInFlight

omit [Extern] in
theorem forgetDevice_pushes (env : Env) (s : Server) (id device : String) (token : Value) :
    s.SamePushes (s.forgetDevice env id device token) := by
  unfold forgetDevice
  split
  · exact ⟨rfl, rfl⟩
  · split
    · dsimp only
      split <;> exact ⟨rfl, rfl⟩
    · exact ⟨rfl, rfl⟩

omit [Extern] in
theorem retire_pushes (env : Env) (s : Server) (d : Delivery) : s.SamePushes (s.retire env d) := by
  unfold retire
  split
  · exact ⟨rfl, rfl⟩
  · split
    · dsimp only
      split
      · exact ⟨rfl, rfl⟩
      · split <;> exact ⟨rfl, rfl⟩
    · exact ⟨rfl, rfl⟩

omit [Extern] in
/-- The provider's answer gives one slot back. -/
theorem legacyAnswered_pushes (s : Server) (job : LegacyPush) (answer : Answer) :
    (s.legacyAnswered job answer).legacyPushes = s.legacyPushes ∧
      (s.legacyAnswered job answer).pushesInFlight = s.pushesInFlight - 1 := by
  unfold legacyAnswered
  dsimp only
  split
  · split <;> exact ⟨rfl, rfl⟩
  · exact ⟨rfl, rfl⟩

end Server

omit [Extern] in
theorem PushTask.step_pushes (env : Env) (answer : Answer) (s : Server) (task : PushTask) :
    s.SamePushes (task.step env answer s).1 := by
  cases task with
  | idle => exact ⟨rfl, rfl⟩
  | due l => cases l <;> exact ⟨rfl, rfl⟩
  | job d jobs =>
    rw [PushTask.step]
    split
    · exact Server.retire_pushes env s d
    · split <;> exact ⟨rfl, rfl⟩
  | target d t jobs =>
    rw [PushTask.step]
    repeat' split
    all_goals exact ⟨rfl, rfl⟩
  | asked d t device jobs => cases answer <;> exact ⟨rfl, rfl⟩
  | answered d t device invalid jobs =>
    cases invalid with
    | false => exact ⟨rfl, rfl⟩
    | true => exact Server.forgetDevice_pushes env s t.id device.1 (device.2.idx "token")

namespace Service

/-- **The count is the number of pushes queued or under way**, and there is a slot for each. -/
structure Slots (x : Service) : Prop where
  count : x.server.pushesInFlight = x.server.legacyPushes.length + x.flight.length
  limit : x.server.pushesInFlight ≤ 32

theorem Slots.step {x y : Service} {a : Act} (h : x.Slots) (hs : Step x a y) : y.Slots := by
  obtain ⟨hcount, hlimit⟩ := h
  cases hs with
  | command hs =>
    rename_i env c t
    obtain ⟨more, hq, hn, hle⟩ := Server.step_raises hs
    refine ⟨?_, ?_⟩
    · show t.pushesInFlight = t.legacyPushes.length + x.flight.length
      rw [hn, hq, List.length_append, hcount]
      omega
    · show t.pushesInFlight ≤ 32
      rcases hle with rfl | hle
      · rw [hn]
        exact hlimit
      · exact hle
  | pass =>
    rename_i env answer
    obtain ⟨hq, hn⟩ := PushTask.step_pushes env answer x.server x.task
    exact ⟨by rw [hn, hq]; exact hcount, by rw [hn]; exact hlimit⟩
  | take hf =>
    rw [hf, List.length_nil, Nat.add_zero] at hcount
    refine ⟨?_, hlimit⟩
    show x.server.pushesInFlight = 0 + x.server.legacyPushes.length
    rw [Nat.zero_add]
    exact hcount
  | answered hf =>
    rename_i pre post job answer
    obtain ⟨hq, hn⟩ := x.server.legacyAnswered_pushes job answer
    rw [hf, List.length_append, List.length_cons] at hcount
    refine ⟨?_, ?_⟩
    · show (x.server.legacyAnswered job answer).pushesInFlight = _ + (pre ++ post).length
      rw [hn, hq, List.length_append, hcount]
      omega
    · show (x.server.legacyAnswered job answer).pushesInFlight ≤ 32
      rw [hn]
      omega
  | restart => exact ⟨rfl, Nat.zero_le _⟩

/-- **No push slot leaks**: in every state of the service, whatever the order of commands, deliveries and answers, the
count is that of the pushes queued or under way, at most 32; an answer takes one off it, and it is zero when there are
none. -/
theorem push_slots_never_leak {config : Config} {store : Store} {push : Bool} {x : Service}
    (h : Relation.ReflTransGen (fun x y => ∃ a, Step x a y) (start config store push) x) :
    x.server.pushesInFlight = x.server.legacyPushes.length + x.flight.length ∧ x.server.pushesInFlight ≤ 32 ∧
      (∀ job answer y, Step x (.answered job answer) y → y.server.pushesInFlight + 1 = x.server.pushesInFlight) ∧
      (x.server.legacyPushes = [] → x.flight = [] → x.server.pushesInFlight = 0) := by
  have hslots : x.Slots := by
    induction h with
    | refl => exact ⟨rfl, Nat.zero_le _⟩
    | tail _ hs ih => exact ih.step hs.choose_spec
  refine ⟨hslots.count, hslots.limit, fun job answer y hs => ?_, fun hq hf => ?_⟩
  · cases hs with
    | answered hf =>
      have hcount := hslots.count
      rw [hf, List.length_append, List.length_cons] at hcount
      show (x.server.legacyAnswered job answer).pushesInFlight + 1 = _
      rw [(x.server.legacyAnswered_pushes job answer).2]
      omega
  · rw [hslots.count, hq, hf]
    rfl

end Service

namespace Trace

/-- The guest of a game registers a device; the owner notifies the guest. -/
def notifyGuest : Value := message "notifyPlayers"
  [("to", .arr [.str guest]), ("eventId", .str "e"), ("title", .str "t"), ("body", .str "b")]

def notified : List (Nat × Command) :=
  [(1, .connected 1), (1, .tells 1 signUp), (1, .tells 1 createRoom), (1, .connected 2), (1, .tells 2 signUp),
    (1, .tells 2 enterRoom), (1, .tells 2 setPushDevice), (1, .tells 1 startGame), (40000, .tells 1 notifyGuest)]

end Trace

namespace Service

omit [Extern] in
/-- One push is under way. -/
theorem push_slots_never_leak_sent :
    letI := Extern.reading [Trace.signUp, Trace.createRoom, Trace.enterRoom, Trace.setPushDevice, Trace.startGame,
      Trace.notifyGuest]
    ∃ x, Relation.ReflTransGen (fun x y => ∃ a, Step x a y) (start .default .empty true) x ∧ x.flight.length = 1 ∧
      x.server.pushesInFlight = 1 := by
  let _ := Extern.reading [Trace.signUp, Trace.createRoom, Trace.enterRoom, Trace.setPushDevice, Trace.startGame,
    Trace.notifyGuest]
  have h : (Server.exec (fun _ _ _ => true) (Trace.notified.map (fun e => (.plain e.1, e.2)))
      (.boot .default .empty true)).any (fun t => decide (t.legacyPushes.length = 1)) = true := by
    decide +kernel
  obtain ⟨t, ht, hone⟩ := (Option.any_eq_true _ _).1 h
  rw [decide_eq_true_eq] at hone
  obtain ⟨log, hrun⟩ := Run.commands (G := fun _ _ => True) (fun _ _ _ _ _ => trivial) [] ht
  have hsteps : Relation.ReflTransGen (fun x y => ∃ a, Step x a y) (start .default .empty true) ⟨t, .idle, [], log⟩ :=
    Relation.ReflTransGen.mono (fun _ _ ⟨a, _, _, hs⟩ => ⟨a, hs⟩) _ _ hrun
  have htaken := hsteps.tail ⟨.take, .take rfl⟩
  have hcount := (push_slots_never_leak htaken).1
  exact ⟨_, htaken, hone, by rw [hcount]; exact congrArg (0 + ·) hone⟩

end Service
end Relay
