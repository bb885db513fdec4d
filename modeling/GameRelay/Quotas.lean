import GameRelay.Trace
import GameRelay.Turns
/-!
# Quotas — how many accounts, live rooms and players there are

An account comes into memory by signing up or from the store, a room becomes live when it is created or when someone
enters it from its file (`Effect.accounts`, `Effect.wakes`).  Only the first of each two ways is checked against the
quota, so the quotas hold in the runs that never go the other way at the limit (`Server.Overfills`).
-/
namespace Relay

open Function (update)

/-- No more accounts and no more live rooms than the settings allow. -/
structure World.Within (w : World) : Prop where
  accounts : AtMost w.seats w.config.maxAccounts
  rooms : AtMost w.rooms w.config.maxRooms

theorem releaseAll_keys {seats : String → Option Seat} {ids : List String} (x : String)
    (h : releaseAll seats ids x ≠ none) : seats x ≠ none := by
  unfold releaseAll at h
  split at h
  · exact fun hn => h (by rw [hn]; rfl)
  · exact h

theorem dropSeats_keys {rooms : String → Option Room} {p : String} {d : Bool} (x : String)
    (h : dropSeats rooms p d x ≠ none) : rooms x ≠ none := by
  obtain ⟨r, hr⟩ := Option.ne_none_iff_exists'.1 h
  obtain ⟨r₀, hr₀, -⟩ := dropSeats_some hr
  rw [hr₀]
  exact Option.some_ne_none r₀

/-- Leaving brings neither an account nor a room. -/
theorem World.Left.keys {p : String} {d : Bool} {w w' : World} (h : w.Left p d w') :
    (∀ x, w'.seats x ≠ none → w.seats x ≠ none) ∧ ∀ x, w'.rooms x ≠ none → w.rooms x ≠ none := by
  cases h.shape with
  | nowhere hq hr hs hrooms => exact ⟨fun x h => releaseAll_keys x (hs ▸ h), fun x h => dropSeats_keys x (hrooms ▸ h)⟩
  | room hq hid hr hs hrooms hnone hsome =>
    refine ⟨fun x h => releaseAll_keys x (hs ▸ h), fun x h => dropSeats_keys x (update_keys (fun _ => ?_) x (hrooms ▸ h))⟩
    rw [hr]
    exact Option.some_ne_none _

variable [Extern]

/-- **Which acts bring an account into memory.** -/
theorem Effect.accounts {a : Act} {w w' : World} (h : Effect a w w') :
    (∀ x, w'.seats x ≠ none → w.seats x ≠ none) ∨
      ∃ cid id o, a = .recalled cid id ∧ w'.seats = update w.seats id o := by
  have seat : ∀ {id : String} {q : Seat} {o : Option Seat}, w.seats id = some q → w'.seats = update w.seats id o →
      ∀ x, w'.seats x ≠ none → w.seats x ≠ none := fun hq hs x hx =>
    update_keys (fun _ => by rw [hq]; exact Option.some_ne_none _) x (hs ▸ hx)
  cases h with
  | gone hl hp hq hc h =>
    refine .inl (fun x hx => update_keys (fun _ => ?_) x (h.keys.1 x hx))
    rw [hq]
    exact Option.some_ne_none _
  | expired hq hc hf => exact .inl (seat hq rfl)
  | bound hl hp hq => exact .inl (seat hq rfl)
  | recalled hl hp => exact .inr ⟨_, _, _, rfl, rfl⟩
  | departed h => exact .inl h.keys.1
  | left h => exact .inl h.keys.1
  | entered hq => exact .inl (seat hq rfl)
  | created hq => exact .inl (seat hq rfl)
  | slept hr hp ha h => cases h; exact .inl (fun _ hx => hx)
  | _ => exact .inl (fun _ hx => hx)

/-- The message lets the account into this room, read back from its file. -/
structure World.Wakes (w : World) (p id : String) (v : Value) (r : Room) : Prop where
  method : v.idx "method" = .str "enterRoom"
  roomId : (v.idx "data").idx "roomId" = .str id
  seat : ∃ q, w.seats p = some q ∧ q.room = none
  found : w.Found id r (some r)
  admitted : Server.entryError r p ((v.idx "data").idx "password") = none

/-- **Which acts make a room live**: its creation, below the limit, and an entry that wakes it. -/
theorem Effect.wakes {a : Act} {w w' : World} (h : Effect a w w') :
    (∀ x, w'.rooms x ≠ none → w.rooms x ≠ none) ∨
      ∃ p v id o, a = .text p v ∧ w'.rooms = update w.rooms id o ∧
        ((∃ n, n < w.config.maxRooms ∧ AtMost w.rooms n) ∨ ∃ r, w.Wakes p id v r) := by
  have room : ∀ {id : String} {r : Room} {o : Option Room}, w.rooms id = some r → w'.rooms = update w.rooms id o →
      ∀ x, w'.rooms x ≠ none → w.rooms x ≠ none := fun hr hs x hx =>
    update_keys (fun _ => by rw [hr]; exact Option.some_ne_none _) x (hs ▸ hx)
  have map : ∀ {f : Room → Room}, w'.rooms = (fun x => (w.rooms x).map f) → ∀ x, w'.rooms x ≠ none → w.rooms x ≠ none :=
    fun hf x hx hn => hx (by rw [hf]; simp only [hn, Option.map_none])
  cases h with
  | gone hl hp hq hc h => exact .inl h.keys.2
  | expired hq hc hf => exact .inl (map rfl)
  | departed h => exact .inl h.keys.2
  | left h => exact .inl h.keys.2
  | entered hq hc hr hf he hm hid hpw =>
    rcases hf with ⟨-, hlive⟩ | ⟨rfl, hn, hst⟩
    · exact .inl (room hlive rfl)
    · exact .inr ⟨_, _, _, _, rfl, rfl, .inr ⟨_, hm, hid, ⟨_, hq, hr⟩, .inr ⟨rfl, hn, hst⟩, hpw ▸ he⟩⟩
  | refused hm hid hpw hq hroom hr => exact .inl (room hr rfl)
  | created hq hc hr hid hfile hhist hlow hroom hmax hfit hfree => exact .inr ⟨_, _, _, _, rfl, rfl, .inl hfree⟩
  | edited hs he => exact .inl (room hs.2 rfl)
  | wrote hs => exact .inl (room hs.2 rfl)
  | rejected hs => exact .inl (room hs.2 rfl)
  | timedOut => exact .inl (map rfl)
  | slept hr hp ha h => cases h; exact .inl (room hr rfl)
  | _ => exact .inl (fun _ hx => hx)

namespace Server

/-- The command brings in, past the limit, an account from the store that is not in memory, or a room from its file. -/
inductive Overfills (env : Env) (s : Server) (c : Command) : Prop
  | account {t : Server} {cid : Nat} {d : Value} {p : Player} (ha : s.Authenticates env c t cid d)
      (hp : (t.expire env.now).Recalls env d p) (hn : (t.expire env.now).players.get p.id = none)
      (hfull : (t.expire env.now).config.maxAccounts ≤ (t.expire env.now).players.size) : Overfills env s c
  | room {t : Server} {cid : Nat} {txt p m id : String} {v : Value} {q : Player} {r : Room}
      (he : s.Executes env c t cid (.text txt)) (hv : t.Valid txt v m) (hp : t.Speaks cid p)
      (hm : v.idx "method" = .str "enterRoom") (hid : (v.idx "data").idx "roomId" = .str id)
      (hq : t.players.get p = some q) (hroom : q.room = none) (hn : t.rooms.get id = none)
      (hr : t.store.load id true env.now = .ok (some r))
      (hadm : entryError r p ((v.idx "data").idx "password") = none) (hfull : t.config.maxRooms ≤ t.rooms.size) :
      Overfills env s c

omit [Extern] in
theorem accounts_atMost (s : Server) : AtMost s.world.seats s.players.size :=
  s.players.atMost.of_keys (fun k hk hn => hk (by show (s.players.get k).map _ = none; rw [hn]; rfl))

/-- An entry that wakes a room is one of a message that reads the room's file. -/
theorem overfills_of_wakes {env : Env} {s : Server} {c : Command} {t : Server} {cid : Nat} {txt p m id : String}
    {v : Value} {r : Room} (he : s.Executes env c t cid (.text txt)) (hv : t.Valid txt v m) (hp : t.Speaks cid p)
    (hread : t.Reads env v) (hw : t.world.Wakes p id v r) (hfull : t.config.maxRooms ≤ t.rooms.size) :
    s.Overfills env c := by
  obtain ⟨hm, hid, ⟨q, hq, hroom⟩, hf, hadm⟩ := hw
  obtain ⟨pl, hpl, rfl⟩ := Option.map_eq_some_iff.1 hq
  rcases hf with ⟨h, -⟩ | ⟨-, hn, now, hd, st, hfile, -, -, rfl⟩
  · cases h
  · obtain ⟨r', hr'⟩ := hread id hm hid hn
    obtain ⟨-, hd', st', hfile', -, -, rfl⟩ := Store.load_ok hr'
    obtain ⟨rfl, rfl⟩ : hd = hd' ∧ st = st' := by
      have h := (show t.store.rooms.get (lowerText id) = some (.record hd st) from hfile).symm.trans hfile'
      cases h
      exact ⟨rfl, rfl⟩
    exact .room he hv hp hm hid hpl hroom hn hr' hadm hfull

/-- **An act within the limits keeps the quotas.** -/
theorem Does.within {env : Env} {s : Server} {c : Command} {a : Act} {w w' : World} (hd : s.Does env c a w)
    (hg : ¬ s.Overfills env c) (hm : Move a w w') (h : w.Within) : w'.Within := by
  obtain ⟨w₁, he, l, q, -, -, rfl⟩ := hm
  refine ⟨?_, ?_⟩
  · show AtMost w₁.seats w₁.config.maxAccounts
    rw [he.frame.1]
    rcases he.accounts with hkeys | ⟨cid, id, o, rfl, hs⟩
    · exact h.accounts.of_keys hkeys
    · rw [hs]
      cases hd with
      | created ha hd hnew hn hfree => exact ((accounts_atMost _).insert id o).mono hfree
      | recalled ha hp =>
        rename_i t d p
        by_cases hn : (t.expire env.now).players.get p.id = none
        · have hfree : (t.expire env.now).players.size < (t.expire env.now).config.maxAccounts :=
            Nat.lt_of_not_le (fun hfull => hg (.account ha hp hn hfull))
          exact ((accounts_atMost _).insert p.id o).mono hfree
        · refine h.accounts.of_keys (update_keys (fun _ hs => hn ?_))
          exact Option.map_eq_none_iff.1 hs
  · show AtMost w₁.rooms w₁.config.maxRooms
    rw [he.frame.1]
    rcases he.wakes with hkeys | ⟨p, v, id, o, rfl, hr, hfree | ⟨r, hwakes⟩⟩
    · exact h.rooms.of_keys hkeys
    · obtain ⟨n, hn, hat⟩ := hfree
      rw [hr]
      exact (hat.insert id o).mono hn
    · cases hd with
      | text hex hv hp hread =>
        rename_i t cid txt m
        have hfree : t.rooms.size < t.config.maxRooms :=
          Nat.lt_of_not_le (fun hfull => hg (overfills_of_wakes hex hv hp hread hwakes hfull))
        rw [hr]
        exact (t.rooms.atMost.insert id o).mono hfree

/-- **No room is over its capacity**, in any run. -/
theorem seats_hold {G : Env → Server → Command → Prop} {config : Config} {store : Store} {push : Bool} {s : Server}
    (h : Run G (boot config store push) s) {id : String} {r : Room} (hr : s.rooms.get id = some r) :
    r.active.size ≤ r.max := by
  have hinv := h.invariant (I := fun w => w.Seated ∧ ∀ id r, w.rooms id = some r → r.Shaped)
    (fun env s c a w w' _ _ hb hm hi => ⟨hm.seated hi.1, fun id =>
      (hm.turn hb.keyed hi.1 id).shaped (x := w.place id) (fun r hr => hi.2 id r hr)⟩)
    (boot_base config store push) ⟨boot_seated config store push, fun _ _ h => nomatch h⟩
  exact (hinv.2 id r hr).size

/-- **The quotas hold** in every run in which nothing comes back from the store past them. -/
theorem quotas_hold {config : Config} {store : Store} {push : Bool} {s : Server}
    (h : Run (fun env s c => ¬ s.Overfills env c) (boot config store push) s) :
    s.players.size ≤ config.maxAccounts ∧ s.rooms.size ≤ config.maxRooms ∧
      ∀ id r, s.rooms.get id = some r → r.active.size ≤ r.max := by
  have hb := boot_base config store push
  have hw : s.world.Within := h.invariant (fun env s c a w w' hg hd _ hm hi => hd.within hg hm hi) hb ⟨.none, .none⟩
  have hc : s.config = config := (h.base hb).config
  refine ⟨?_, ?_, fun id r hr => seats_hold h hr⟩
  · rw [← hc]
    refine IndexMap.size_le (hw.accounts.of_keys (fun k hk hn => hk ?_))
    exact Option.map_eq_none_iff.1 hn
  · rw [← hc]
    exact IndexMap.size_le hw.rooms

/-- Without a session directory nothing comes back from it. -/
theorem not_overfills_of_disabled {env : Env} {s : Server} {c : Command} (h : s.store.enabled = false) (hc : c ≠ .sweep) :
    ¬ s.Overfills env c := by
  rintro (⟨⟨⟩, hp, -, -⟩ | ⟨he, -, -, -, -, -, -, -, hr, -, -⟩)
  · exact not_recalls_of_disabled (show (s.setConnection _ _).store.enabled = false from h) hp
  · generalize Frame.text _ = frame at he
    unfold Store.load at hr
    cases he with
    | due => exact hc rfl
    | _ =>
      rw [if_pos (show (s.setConnection _ _).store.enabled = false from h)] at hr
      cases hr

omit [Extern] in
theorem quotas_hold_opening : letI := Extern.reading [Trace.signUp, Trace.createRoom]
    ∃ s, Run (fun env s c => ¬ s.Overfills env c) (boot .default { Store.empty with enabled := false } false) s ∧
      s.rooms.size = 1 ∧ (s.players.size ≤ Config.default.maxAccounts ∧ s.rooms.size ≤ Config.default.maxRooms ∧
        ∀ id r, s.rooms.get id = some r → r.active.size ≤ r.max) := by
  let _ := Extern.reading [Trace.signUp, Trace.createRoom]
  have h : (exec (fun _ s c => !s.store.enabled && !c.isSweep) Trace.opening
      (boot .default { Store.empty with enabled := false } false)).any (fun s => decide (s.rooms.size = 1)) = true := by
    decide +kernel
  obtain ⟨s, hs, hr⟩ := (Option.any_eq_true _ _).1 h
  have hrun := exec_run (G := fun env s c => ¬ s.Overfills env c) (fun env s c hok => by
    rw [Bool.and_eq_true] at hok
    exact not_overfills_of_disabled (by simpa using hok.1) (by rintro rfl; exact absurd hok.2 (by decide))) hs
  exact ⟨s, hrun, of_decide_eq_true hr, quotas_hold hrun⟩

/-- The first account authenticates again. -/
def Trace.signIn : Value := message "authenticate"
  [("playerId", .str Trace.account), ("password", .str "secret-0")]

omit [Extern] in
/-- **An expired account that comes back is one too many**: another signed up in the meantime. -/
theorem quotas_not_hold : letI := Extern.reading [Trace.signUp, Trace.signIn]
    ∃ s, Run (fun _ _ _ => True) (boot { Config.default with maxAccounts := 1 } Store.empty false) s ∧
      ¬ s.players.size ≤ 1 := by
  let _ := Extern.reading [Trace.signUp, Trace.signIn]
  have h : (exec (fun _ _ _ => true) [(.plain 1, .connected 1), (.plain 1, .tells 1 Trace.signUp),
      (.plain 2, .disconnect 1), (.plain 300002, .connected 2), (.plain 300002, .tells 2 Trace.signUp),
      (.plain 300003, .connected 3), (.plain 300003, .tells 3 Trace.signIn)]
      (boot { Config.default with maxAccounts := 1 } Store.empty false)).any (fun s => decide (s.players.size = 2)) = true := by
    decide +kernel
  obtain ⟨s, hs, hsize⟩ := (Option.any_eq_true _ _).1 h
  exact ⟨s, exec_run (fun _ _ _ _ => trivial) hs, by rw [of_decide_eq_true hsize]; decide⟩

end Server
end Relay
