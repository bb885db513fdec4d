import GameRelay.Changes
import GameRelay.Commits
import GameRelay.Trace
/-!
# Uploads — who ends a pending upload

A pending upload is its owner's: the owner sits in the room and hosts it.  Every act leaves it alone, is its owner's own,
or is the timeout (`Undisturbed`) — but one: a frame of another member that has the shape of a chunk (`Foreign`), which
`upload` takes for a stale chunk and answers by dropping the upload.
-/
namespace Relay

open Function (update)

/-- The upload is still pending in the room, or its owner acted, or it has been idle for more than 30 seconds. -/
def Undisturbed (a : Act) (u : Upload) (o : Option Room) : Prop :=
  (∃ r, o = some r ∧ r.upload = some u) ∨ a.actor = some u.owner ∨ ∃ now, a = .timedOut now ∧ 30000 < now - u.time

/-- Another member sends a frame that has the shape of a chunk. -/
def Foreign (a : Act) (r : Room) (u : Upload) : Prop :=
  ∃ p b, a = .binary p b ∧ p ∈ r.active ∧ p ≠ u.owner ∧ uploadShaped b = true

variable [Extern]

omit [Extern] in
/-- Whoever leaves takes its own upload along and no other. -/
theorem remains_upload {r : Room} {u : Upload} {p : String} {d : Bool} (hu : r.upload = some u) (hne : u.owner ≠ p) :
    (remains r p d).upload = some u := by
  have hd : (Server.departed r p d).upload = some u := by
    have hkeep : (Server.departed r p d).upload = if r.upload.any (fun u => decide (u.owner = p)) then none else r.upload := by
      unfold Server.departed
      dsimp only
      split <;> split <;> rfl
    rw [hkeep, hu, Option.any_some, decide_eq_false hne, if_neg Bool.false_ne_true]
  unfold remains
  split
  · exact hd
  · exact hd

omit [Extern] in
/-- A room whose uploader stays does not empty. -/
theorem remains_nonempty {r : Room} {u : Upload} {p : String} {d : Bool} (h : r.Shaped) (hu : r.upload = some u)
    (hne : u.owner ≠ p) : (remains r p d).active.isEmpty = false :=
  IndexSet.isEmpty_eq_false.2 ⟨u.owner, (h.remains p d).uploader u (remains_upload hu hne)⟩

/-- **Every turn leaves a pending upload alone**, unless its owner acts, its time is over, or a foreign chunk comes. -/
theorem Turn.undisturbed {w : World} {id : String} {a : Act} {x y : Place} (h : Turn w id a x y) {r : Room} {u : Upload}
    (hx : x.live = some r) (hr : r.Shaped) (ho : u.owner = r.owner) (hu : r.upload = some u) (hf : ¬ Foreign a r u) :
    Undisturbed a u y.live := by
  have same : ∀ {r' : Room}, r'.upload = some u → Undisturbed a u (some r') := fun h => .inl ⟨_, rfl, h⟩
  have nonempty : r.active.isEmpty = false := IndexSet.isEmpty_eq_false.2 ⟨u.owner, hr.uploader u hu⟩
  have dropped : ∀ {p d r'}, dropSeat x.live p d = some r' → r'.Shaped ∧ r'.upload = some u := by
    intro p d r' hr'
    rw [hx] at hr'
    unfold dropSeat at hr'
    split at hr'
    · cases hr'; exact ⟨hr, hu⟩
    · cases hr'; exact ⟨hr.of_eq rfl rfl ⟨rfl, rfl, rfl, rfl⟩ (.inr rfl), hu⟩
  -- who leaves is another, or the owner
  have leaves : ∀ {p : String} {o : Option Room}, a.actor = some p → (u.owner ≠ p → Undisturbed a u o) → Undisturbed a u o := by
    intro p o ha h
    by_cases hp : u.owner = p
    · exact .inr (.inl (by rw [ha, hp]))
    · exact h hp
  cases h with
  | spared h => rw [h.live_eq, hx]; exact same hu
  | expired => show Undisturbed a u (x.live.map _); rw [hx]; exact same hu
  | left ha h =>
    refine leaves ha (fun hne => ?_)
    cases h with
    | elsewhere h =>
      rw [h.live_eq]
      show Undisturbed a u (dropSeat x.live _ _)
      unfold dropSeat
      rw [hx]
      split <;> exact same hu
    | deleted hr' he hp =>
      obtain ⟨hs, hu'⟩ := dropped hr'
      rw [remains_nonempty hs hu' hne] at he
      cases he
    | slept hr' he hp h =>
      obtain ⟨hs, hu'⟩ := dropped hr'
      rw [remains_nonempty hs hu' hne] at he
      cases he
    | kept hr' he hp => exact same (remains_upload (dropped hr').2 hne)
    | stayed hr' hfirst =>
      refine same ?_
      unfold handedOver
      split
      · exact remains_upload (dropped hr').2 hne
      · exact remains_upload (dropped hr').2 hne
  | created ha hlow hl => rw [hx] at hl; cases hl
  | woken ha hl => rw [hx] at hl; cases hl
  | joined ha hl he =>
    rw [hx] at hl
    cases hl
    refine same ?_
    unfold Server.joined Server.hosts
    rw [nonempty, Bool.and_false, if_neg Bool.false_ne_true]
    exact hu
  | refused ha hq hroom hm hid hpw hl hact =>
    rw [hx] at hl
    cases hl
    rw [nonempty] at hact
    cases hact
  | edited ha hl hid hm hj he =>
    rw [hx] at hl
    cases hl
    have owner : ∀ {p v o}, a = .text p v → r.owner = p → Undisturbed a u o := by
      rintro p v o rfl hp
      exact .inr (.inl (congrArg some (hp.symm.trans ho.symm)))
    cases he with
    | none => exact same hu
    | settings =>
      refine same ?_
      unfold joinClosed
      split <;> exact hu
    | started ho' => exact owner ha ho'
    | metadata ho' => exact owner ha ho'
    | pushed ho' => exact owner ha ho'
    | began hp ho' => exact owner ha ho'
    | commit hp ho' => exact owner ha ho'
  | wrote ha hl hrid hm hp hb hu' hid hst =>
    rw [hx] at hl
    cases hl
    rw [hu] at hu'
    cases hu'
    simp only [staleChunk, Bool.or_eq_false_iff, decide_eq_false_iff_not, not_not] at hst
    rw [ha]
    exact .inr (.inl (congrArg some hst.1.1.1.1.2.symm))
  | rejected ha hl hm hp hb hu' hid hst =>
    rename_i p b bid r' u'
    rw [hx] at hl
    cases hl
    by_cases hp : u.owner = p
    · exact .inr (.inl (by rw [ha, hp]; rfl))
    · exact absurd ⟨p, b, ha, hm, Ne.symm hp, hb⟩ hf
  | timedOut ha =>
    rename_i now
    show Undisturbed a u (x.live.map _)
    rw [hx]
    by_cases hlate : 30000 < now - u.time
    · exact .inr (.inr ⟨now, ha, hlate⟩)
    · refine same ?_
      unfold Server.timeoutUpload
      rw [hu, Option.any_some, if_neg (by simpa using hlate)]
      exact hu
  | slept ha hl hp hact h =>
    rw [hx] at hl
    cases hl
    rw [nonempty] at hact
    cases hact

namespace Server

/-- What `upload` does with a frame of somebody else. -/
theorem upload_foreign {env : Env} {s t : Server} {p : String} {r r' : Room} {b : Bytes} {u : Upload} (hu : r.upload = some u)
    (hne : p ≠ u.owner) (h : s.upload env p r b = .ok (t, r')) :
    r'.upload = if decide (22 ≤ b.length) then none else some u := by
  unfold upload at h
  split at h
  · rename_i hlen
    cases h
    rw [decide_eq_false (by omega), hu]
    rfl
  · rename_i hlen
    rw [hu] at h
    dsimp only at h
    cases hid : parseUuid u.id with
    | none => rw [hid] at h; cases h
    | some id =>
      have hstale : staleChunk r u id p b = true := by
        unfold staleChunk
        rw [decide_eq_true (Ne.symm hne)]
        simp
      rw [hid] at h
      dsimp only [Out.unwrap] at h
      rw [if_pos hstale] at h
      cases h
      rw [decide_eq_true (by omega), if_pos rfl]

/-- **Which foreign frames end an upload**: those of at least 22 bytes that begin with 2. -/
theorem binary_foreign {env : Env} {s t : Server} {p id : String} {a : Player} {r : Room} {b : Bytes} {u : Upload}
    (ha : s.players.get p = some a) (hroom : a.room = some id) (hr : s.rooms.get id = some r) (hp : r.persistent = true)
    (hu : r.upload = some u) (hne : p ≠ u.owner) (h : s.binary env p b = .ok t) :
    (∃ r', t.rooms.get id = some r' ∧ r'.upload = some u) ↔ uploadShaped b = false := by
  have same : t.rooms = s.rooms → uploadShaped b = false →
      ((∃ r', t.rooms.get id = some r' ∧ r'.upload = some u) ↔ uploadShaped b = false) := fun ht hb =>
    ⟨fun _ => hb, fun _ => ⟨r, by rw [ht]; exact hr, hu⟩⟩
  unfold binary at h
  rw [ha] at h
  dsimp only [Out.unwrap] at h
  rw [hroom] at h
  dsimp only at h
  rw [hr] at h
  dsimp only at h
  by_cases hhead : b.head? = some 2
  · rw [if_pos (by rw [hp, hhead]; rfl)] at h
    cases hup : (s.takeRoom id).upload env p r b with
    | halt x => rw [hup] at h; cases h
    | err x => rw [hup] at h; cases h
    | ok x =>
      obtain ⟨v, r'⟩ := x
      rw [hup] at h
      cases h
      have hr' := upload_foreign hu hne hup
      have hshape : uploadShaped b = decide (22 ≤ b.length) := by
        unfold uploadShaped
        rw [hhead, decide_eq_true rfl, Bool.and_true]
      show (∃ r'', (v.rooms.insert id r').get id = some r'' ∧ r''.upload = some u) ↔ _
      rw [IndexMap.get_insert_self, hshape]
      by_cases hlen : 22 ≤ b.length
      · rw [decide_eq_true hlen] at hr' ⊢
        refine ⟨fun ⟨r'', he, hup'⟩ => ?_, fun h => nomatch h⟩
        cases he
        rw [hr'] at hup'
        cases hup'
      · rw [decide_eq_false hlen] at hr' ⊢
        exact ⟨fun _ => rfl, fun _ => ⟨r', rfl, hr'⟩⟩
  · have hshape : uploadShaped b = false := by
      unfold uploadShaped
      rw [decide_eq_false hhead, Bool.and_false]
    rw [if_neg (by rw [hp, decide_eq_false hhead]; decide)] at h
    refine same ?_ hshape
    split at h
    · cases h
      exact congrArg Core.rooms (sent_relayBytes s r p _ b).1
    · split at h
      · cases h
        exact congrArg Core.rooms (err_toCore s p _)
      · cases hid : parseUuid p with
        | none => rw [hid] at h; cases h
        | some sender =>
          rw [hid] at h
          cases h
          exact congrArg Core.rooms (sent_relayBytes s r p _ _).1

end Server

namespace Trace

/-- The first account uploads while the second is in the room. -/
def uploading : List (Env × Command) := shared ++
  [(.plain 1, .tells 1 startGame), (.plain 1, .tells 1 (beginSession 4))]

end Trace

namespace Server

omit [Extern] in
theorem uploading_run :
    letI := Extern.reading [Trace.signUp, Trace.createRoom, Trace.enterRoom, Trace.startGame, Trace.beginSession 4]
    ∃ s r u a, Run (fun _ _ _ => True) (boot .default .empty false) s ∧ s.rooms.get Trace.room = some r ∧
      r.upload = some u ∧ u.owner = Trace.account ∧ Trace.guest ∈ r.active ∧ s.players.get Trace.guest = some a ∧
      a.room = some Trace.room ∧ s.connectionOf Trace.guest = some 2 ∧
      (∃ t, s.binary (Env.plain 2) Trace.guest [2, 0] = .ok t) ∧
      ∃ t r', s.step (Env.plain 2) (.receive 2 (Trace.chunk [9])) = some t ∧ t.rooms.get Trace.room = some r' ∧
        r'.upload = none := by
  let _ := Extern.reading [Trace.signUp, Trace.createRoom, Trace.enterRoom, Trace.startGame, Trace.beginSession 4]
  have h : (exec (fun _ _ _ => true) Trace.uploading (boot .default .empty false)).any (fun s =>
      (s.rooms.get Trace.room).any (fun r => r.upload.any (fun u => decide (u.owner = Trace.account)) &&
        r.active.contains Trace.guest) &&
      (s.players.get Trace.guest).any (fun a => decide (a.room = some Trace.room)) &&
      decide (s.connectionOf Trace.guest = some 2) &&
      (s.binary (Env.plain 2) Trace.guest [2, 0]).result.isSome &&
      (s.step (Env.plain 2) (.receive 2 (Trace.chunk [9]))).any (fun t =>
        (t.rooms.get Trace.room).any (fun r => decide (r.upload = none)))) = true := by
    decide +kernel
  obtain ⟨s, hs, h⟩ := (Option.any_eq_true _ _).1 h
  simp only [Bool.and_eq_true, decide_eq_true_eq] at h
  obtain ⟨⟨⟨⟨hr, ha⟩, hconn⟩, hok⟩, ht⟩ := h
  obtain ⟨r, hr, hu⟩ := (Option.any_eq_true _ _).1 hr
  rw [Bool.and_eq_true] at hu
  obtain ⟨u, hu', hown⟩ := (Option.any_eq_true _ _).1 hu.1
  obtain ⟨a, ha, hroom⟩ := (Option.any_eq_true _ _).1 ha
  obtain ⟨t, ht, hr'⟩ := (Option.any_eq_true _ _).1 ht
  obtain ⟨r', hr', hnone⟩ := (Option.any_eq_true _ _).1 hr'
  refine ⟨s, r, u, a, exec_run (fun _ _ _ _ => trivial) hs, hr, hu', of_decide_eq_true hown,
    IndexSet.contains_iff.1 hu.2, ha, of_decide_eq_true hroom, hconn, ?_, t, r', ht, hr', of_decide_eq_true hnone⟩
  obtain ⟨t, ht⟩ := Option.isSome_iff_exists.1 hok
  exact ⟨t, Out.result_eq_some.1 ht⟩

end Server
end Relay
