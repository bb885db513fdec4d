import GameRelay.Roster
import GameRelay.Consistency
import GameRelay.Acknowledged
/-!
# Reserved — a seat kept is a seat available

In a counted room whoever may come back finds a place, so **entering is never refused to them**.  The accounts of a fixed
roster stay in memory as long as their room is live: expiry asks the live rooms first.  That needs the roster to be of
accounts in memory when the game starts, which a stored account brought back over the one in memory breaks
(`Server.Doubles`).
-/
namespace Relay

open Function (update)

/-- The accounts on the roster of a live fixed room without a file are in memory. -/
def World.Manned (w : World) : Prop :=
  ∀ {id r}, w.rooms id = some r → r.fixed = true → r.persistent = false → ∀ p ∈ r.players, ∃ q, w.seats p = some q

theorem World.Sent.manned {w w' : World} (h : w.Sent w') (hw : w.Manned) : w'.Manned := by
  obtain ⟨l, q, -, -, rfl⟩ := h
  exact hw

theorem World.Left.account {p x : String} {d : Bool} {w w' : World} (h : w.Left p d w') {q : Seat} (hx : w.seats x = some q) :
    ∃ q', w'.seats x = some q' ∧ q'.password = q.password := by
  have hrel : ∀ ids, w'.seats = releaseAll w.seats ids → ∃ q', w'.seats x = some q' ∧ q'.password = q.password := by
    intro ids hs
    rw [hs]
    unfold releaseAll
    rw [hx]
    split
    · exact ⟨_, rfl, rfl⟩
    · exact ⟨q, rfl, rfl⟩
  cases h.shape with
  | nowhere hq hr hs hrooms => exact hrel _ hs
  | room hq hid hr hs hrooms hnone hsome => exact hrel _ hs

variable [Extern]

/-- **An account stays with its password**, unless it expires, on no live fixed roster, or is brought back from its
file. -/
theorem Effect.account {a : Act} {w w' : World} (h : Effect a w w') {x : String} {q : Seat} (hx : w.seats x = some q) :
    (∃ q', w'.seats x = some q' ∧ (q'.password = q.password ∨ ∃ cid, a = .recalled cid x)) ∨
      a = .expired x ∧ ∀ rid r, w.rooms rid = some r → r.fixed = true → x ∉ r.players := by
  have same : ∀ {w₁ : World}, w₁.seats = w.seats →
      ∃ q', w₁.seats x = some q' ∧ (q'.password = q.password ∨ ∃ cid, a = .recalled cid x) :=
    fun hs => ⟨q, by rw [hs]; exact hx, .inl rfl⟩
  have set : ∀ {y : String} {q₀ q₁ : Seat} {w₁ : World}, w.seats y = some q₀ →
      w₁.seats = update w.seats y (some q₁) → q₁.password = q₀.password →
      ∃ q', w₁.seats x = some q' ∧ (q'.password = q.password ∨ ∃ cid, a = .recalled cid x) := by
    intro y q₀ q₁ w₁ hy hs hpw
    rw [hs, Function.update_apply]
    split
    · rename_i he
      rw [he, hy] at hx
      cases hx
      exact ⟨q₁, rfl, .inl hpw⟩
    · exact ⟨q, hx, .inl rfl⟩
  have left : ∀ {p : String} {d : Bool} {w₀ w₁ : World} {q₀ : Seat}, w₀.Left p d w₁ → w₀.seats x = some q₀ →
      q₀.password = q.password → ∃ q', w₁.seats x = some q' ∧ (q'.password = q.password ∨ ∃ cid, a = .recalled cid x) := by
    intro p d w₀ w₁ q₀ hl hx₀ hpw
    obtain ⟨q', hq', hpw'⟩ := hl.account hx₀
    exact ⟨q', hq', .inl (hpw'.trans hpw)⟩
  cases h with
  | expired hq hc hf =>
    rename_i id q₀
    by_cases he : x = id
    · subst he
      exact .inr ⟨rfl, hf⟩
    · exact .inl ⟨q, by show update w.seats id none x = _; rw [Function.update_of_ne he]; exact hx, .inl rfl⟩
  | recalled hl hp =>
    rename_i cid id pw l
    refine .inl ?_
    by_cases he : x = id
    · subst he
      exact ⟨_, Function.update_self .., .inr ⟨cid, rfl⟩⟩
    · exact ⟨q, by show update w.seats id _ x = _; rw [Function.update_of_ne he]; exact hx, .inl rfl⟩
  | gone hl hp hq hc h =>
    rename_i cid l p q₀
    by_cases he : x = p
    · subst he
      rw [hq] at hx
      cases hx
      exact .inl (left h (Function.update_self ..) rfl)
    · exact .inl (left h (by show update w.seats p _ x = _; rw [Function.update_of_ne he]; exact hx) rfl)
  | departed h => exact .inl (left h hx rfl)
  | left h => exact .inl (left h hx rfl)
  | bound hl hp hq => exact .inl (set hq rfl rfl)
  | entered hq hc hr hf he => exact .inl (set hq rfl rfl)
  | created hq hc hr hid hfile hhist hlow hroom hmax hfit => exact .inl (set hq rfl rfl)
  | slept hr hp ha h =>
    cases h
    exact .inl (same rfl)
  | idle => exact .inl (same rfl)
  | connected h => exact .inl (same rfl)
  | unlinked hl hq => exact .inl (same rfl)
  | queued hd => exact .inl (same rfl)
  | rekeyed hl hu => exact .inl (same rfl)
  | refused => exact .inl (same rfl)
  | edited => exact .inl (same rfl)
  | wrote => exact .inl (same rfl)
  | rejected => exact .inl (same rfl)
  | timedOut => exact .inl (same rfl)

/-- What an act does to the roster of a live room: it stays, or the game starts with who is in, or the room is new or from
its file. -/
theorem Change.roster {w : World} {id : String} {a : Act} {o o' : Option Room} (h : Change w id a o o')
    {r' : Room} (hr' : o' = some r') :
    (∃ r, o = some r ∧ r'.started = r.started ∧ r'.fixed = r.fixed ∧ r'.persistent = r.persistent ∧ r'.players = r.players) ∨
      (∃ r, o = some r ∧ (∃ p v, a = .text p v) ∧ r.started = false ∧ r'.started = true ∧
        (r'.fixed = true → r'.players = r.active)) ∨
      (o = none ∧ r'.fixed = false ∧ r'.persistent = false) ∨
      (o = none ∧ r'.persistent = true) := by
  have joined : ∀ (r : Room) p, (Server.joined r p).started = r.started ∧ (Server.joined r p).fixed = r.fixed ∧
      (Server.joined r p).persistent = r.persistent ∧ (Server.joined r p).players = r.players := fun r p => by
    unfold Server.joined
    dsimp only
    split <;> exact ⟨rfl, rfl, rfl, rfl⟩
  have gone : ∀ {r₀ r : Room} {p : String} {d : Bool}, dropSeat (some r₀) p d = some r →
      (remains r p d).started = r₀.started ∧ (remains r p d).fixed = r₀.fixed ∧
      (remains r p d).persistent = r₀.persistent ∧ (remains r p d).players = r₀.players := by
    intro r₀ r p d hr
    obtain ⟨hs, hf, hpl, -, hv⟩ := departed_fixed r p d
    have hdrop : r.started = r₀.started ∧ r.fixed = r₀.fixed ∧ r.persistent = r₀.persistent ∧ r.players = r₀.players := by
      unfold dropSeat at hr
      split at hr <;> cases hr <;> exact ⟨rfl, rfl, rfl, rfl⟩
    unfold remains
    split <;> exact ⟨hs.trans hdrop.1, hf.trans hdrop.2.1, hv.trans hdrop.2.2.1, hpl.trans hdrop.2.2.2⟩
  cases h with
  | same => exact .inl ⟨r', hr', rfl, rfl, rfl, rfl⟩
  | gone => cases hr'
  | unseated p => cases hr'; exact .inl ⟨_, rfl, rfl, rfl, rfl, rfl⟩
  | timedOut ha =>
    cases hr'
    refine .inl ⟨_, rfl, ?_⟩
    unfold Server.timeoutUpload
    split <;> exact ⟨rfl, rfl, rfl, rfl⟩
  | kept ha hr he hp => cases hr'; exact .inl ⟨_, rfl, gone hr⟩
  | stayed ha hr hf =>
    cases hr'
    refine .inl ⟨_, rfl, ?_⟩
    have := gone hr
    unfold handedOver
    split <;> exact this
  | created ha hfile hroom hmax hfit =>
    cases hr'
    rw [hroom]
    obtain ⟨-, hf, hv, -⟩ := joined { Room.new id _ _ _ _ _ _ with binary := _ } _
    exact .inr (.inr (.inl ⟨rfl, hf, hv⟩))
  | woken ha hfile hid hlen hroom he =>
    cases hr'
    rw [hroom]
    obtain ⟨-, -, hv, -⟩ := joined { Store.roomOf _ id _ with state := _ } _
    exact .inr (.inr (.inr ⟨rfl, hv⟩))
  | joined ha he => cases hr'; exact .inl ⟨_, rfl, joined _ _⟩
  | edited ha hm he =>
    cases hr'
    cases he with
    | started ho hs =>
      refine .inr (.inl ⟨_, rfl, ⟨_, _, ha⟩, hs, rfl, fun hf => ?_⟩)
      unfold startedRoom at hf ⊢
      exact if_pos hf
    | settings =>
      refine .inl ⟨_, rfl, ?_⟩
      unfold joinClosed
      split <;> exact ⟨rfl, rfl, rfl, rfl⟩
    | none => exact .inl ⟨_, rfl, rfl, rfl, rfl, rfl⟩
    | metadata => exact .inl ⟨_, rfl, rfl, rfl, rfl, rfl⟩
    | pushed => exact .inl ⟨_, rfl, rfl, rfl, rfl, rfl⟩
    | began => exact .inl ⟨_, rfl, rfl, rfl, rfl, rfl⟩
    | commit => exact .inl ⟨_, rfl, rfl, rfl, rfl, rfl⟩
  | wrote => cases hr'; exact .inl ⟨_, rfl, rfl, rfl, rfl, rfl⟩
  | rejected => cases hr'; exact .inl ⟨_, rfl, rfl, rfl, rfl, rfl⟩

/-- **A live fixed roster without a file stays in memory.** -/
theorem Effect.manned {a : Act} {w w' : World} (h : Effect a w w') (hk : w.Keyed) (hs : w.Seated) (hc : w.Consistent)
    (hw : w.Manned) : w'.Manned := by
  intro id r' hr' hf hv p hp
  have keep : ∀ {r : Room} {q : Seat}, w.rooms id = some r → w.seats p = some q →
      (r.fixed = true → p ∈ r.players) → r.fixed = true → ∃ q', w'.seats p = some q' := by
    intro r q hr hq hp hf
    rcases h.account hq with ⟨q', hq', -⟩ | ⟨-, hno⟩
    · exact ⟨q', hq'⟩
    · exact absurd (hp hf) (hno id r hr hf)
  rcases ((Move.of_eq h).change hk hs id).roster hr' with
    ⟨r, hr, -, hf', hv', hp'⟩ | ⟨r, hr, ⟨x, v, rfl⟩, -, -, hp'⟩ | ⟨-, hf', -⟩ | ⟨-, hv'⟩
  · obtain ⟨q, hq⟩ := hw hr (hf' ▸ hf) (hv' ▸ hv) p (hp' ▸ hp)
    exact keep hr hq (fun _ => hp' ▸ hp) (hf' ▸ hf)
  · -- the game starts with who is in, and they are in memory
    obtain ⟨q, hq, hid⟩ := hc.active hr (hp' hf ▸ hp)
    rcases h.account hq with ⟨q', hq', -⟩ | ⟨ha, -⟩
    · exact ⟨q', hq'⟩
    · cases ha
  · rw [hf'] at hf
    cases hf
  · rw [hv'] at hv
    cases hv

/-! A live room without a file: when it is gone, it is gone for good. -/

omit [Extern] in
theorem Spared.unshared {shared : Prop} {id : String} {x y : Place} (h : Spared shared id x y) (hs : ¬ shared) :
    (y.file = x.file ∨ y.file = none) ∧ y.live = x.live := by
  cases h with
  | same => exact ⟨.inl rfl, rfl⟩
  | evicted => exact ⟨.inr rfl, rfl⟩
  | overwritten hsh => exact absurd hsh hs

/-- A live room has a past, and without persistence no file. -/
def Place.Unfiled (x : Place) : Prop := ∀ r, x.live = some r → x.past ≠ [] ∧ (r.persistent = false → x.file = none)

/-- What is left of a game without persistence, which may still be live. -/
structure Place.Ended (x : Place) : Prop where
  past : x.past ≠ []
  file : x.file = none
  live : ∀ r, x.live = some r → r.persistent = false ∧ r.started = true

theorem Turn.past_ne {w : World} {id : String} {a : Act} {x y : Place} (h : Turn w id a x y) (hx : x.past ≠ []) :
    y.past ≠ [] := by
  obtain ⟨es, hes⟩ := h.past_grows
  rw [hes]
  exact fun hnil => hx (List.append_eq_nil_iff.1 hnil).1

/-- **What a turn does to a place**: the live room and its file, once no other room shares its path. -/
theorem Turn.filing {w : World} {id : String} {a : Act} {x y : Place} (h : Turn w id a x y) (hs : ¬ w.Aliased id) :
    (y.file = x.file ∨ y.file = none ∨ ∃ r, x.live = some r ∧ r.persistent = true) ∧
      (x.live = none → y.live = none ∨ y.past ≠ [] ∧ ((x.file = none ∧ x.past = []) ∨
        (x.file ≠ none ∧ ∀ r, y.live = some r → r.persistent = true))) := by
  cases h with
  | spared h => exact ⟨(h.unshared hs).1.imp_right .inl, fun hl => .inl ((h.unshared hs).2.trans hl)⟩
  | expired => exact ⟨.inl rfl, fun hl => .inl (by show x.live.map _ = none; rw [hl]; rfl)⟩
  | left ha h =>
    have hdrop : ∀ {p d r}, dropSeat x.live p d = some r → ∃ r₀, x.live = some r₀ ∧ r.persistent = r₀.persistent := by
      intro p d r hr
      unfold dropSeat at hr
      split at hr
      · exact ⟨r, hr, rfl⟩
      · obtain ⟨r₀, hr₀, rfl⟩ := Option.map_eq_some_iff.1 hr
        exact ⟨r₀, hr₀, rfl⟩
    have hnone : ∀ {p d r} {P : Prop}, dropSeat x.live p d = some r → x.live = none → P := by
      intro p d r P hr hl
      obtain ⟨r₀, hr₀, -⟩ := hdrop hr
      rw [hl] at hr₀
      cases hr₀
    cases h with
    | elsewhere h =>
      refine ⟨(h.unshared hs).1.imp_right .inl, fun hl => .inl ((h.unshared hs).2.trans ?_)⟩
      show dropSeat x.live _ _ = none
      rw [hl]
      unfold dropSeat
      split <;> rfl
    | deleted hr => exact ⟨.inl rfl, hnone hr⟩
    | slept hr he hp h =>
      obtain ⟨r₀, hr₀, hp₀⟩ := hdrop hr
      exact ⟨.inr (.inr ⟨r₀, hr₀, hp₀.symm.trans hp⟩), hnone hr⟩
    | kept hr => exact ⟨.inl rfl, hnone hr⟩
    | stayed hr => exact ⟨.inl rfl, hnone hr⟩
  | created ha hlow hl hfile hpast =>
    exact ⟨.inl rfl, fun _ => .inr ⟨fun hnil => List.cons_ne_nil _ _ (List.append_eq_nil_iff.1 hnil).2, .inl ⟨hfile, hpast⟩⟩⟩
  | woken ha hl hfile hid hlen hroom =>
    refine ⟨.inl rfl, fun _ => .inr ⟨fun hnil => List.cons_ne_nil _ _ (List.append_eq_nil_iff.1 hnil).2,
      .inr ⟨by rw [hfile]; exact Option.some_ne_none _, fun r hr => ?_⟩⟩⟩
    cases hr
    rw [hroom]
    unfold Server.joined
    dsimp only
    split <;> rfl
  | joined ha hl => exact ⟨.inl rfl, fun hn => by rw [hl] at hn; cases hn⟩
  | refused => exact ⟨.inl rfl, fun _ => .inl rfl⟩
  | edited ha hl => exact ⟨.inl rfl, fun hn => by rw [hl] at hn; cases hn⟩
  | wrote ha hl => exact ⟨.inl rfl, fun hn => by rw [hl] at hn; cases hn⟩
  | rejected ha hl => exact ⟨.inl rfl, fun hn => by rw [hl] at hn; cases hn⟩
  | timedOut ha => exact ⟨.inl rfl, fun hl => .inl (by show x.live.map _ = none; rw [hl]; rfl)⟩
  | slept ha hl hp hact h => exact ⟨.inr (.inr ⟨_, hl, hp⟩), fun hn => by rw [hl] at hn; cases hn⟩

/-- **Every live room has a past, and without persistence no file.** -/
theorem Turn.unfiled {w : World} {id : String} {a : Act} {x y : Place} (h : Turn w id a x y) (hs : ¬ w.Aliased id)
    (hx : x = w.place id) (hcount : ∀ r, x.live = some r → r.Counted) (hu : x.Unfiled) : y.Unfiled := by
  intro r' hr'
  obtain ⟨hfile, hlive⟩ := h.filing hs
  have file : ∀ r, x.live = some r → (r'.persistent = false → r.persistent = false) → r'.persistent = false → y.file = none := by
    intro r hr hp hp'
    have hpr := hp hp'
    rcases hfile with hf | hf | ⟨r₁, hr₁, hp₁⟩
    · exact hf.trans ((hu r hr).2 hpr)
    · exact hf
    · rw [hr] at hr₁
      cases hr₁
      rw [hpr] at hp₁
      cases hp₁
  rcases (h.change hx).roster hr' with ⟨r, hr, -, -, hv, -⟩ | ⟨r, hr, -, hst, -, -⟩ | ⟨hn, -, -⟩ | ⟨hn, hv⟩
  · exact ⟨h.past_ne (hu r hr).1, file r hr (fun hp => hv ▸ hp)⟩
  · refine ⟨h.past_ne (hu r hr).1, file r hr (fun _ => ?_)⟩
    by_contra hp
    have hf := (hcount r hr).saved (eq_true_of_ne_false hp)
    rw [((hcount r hr).waiting hst).1] at hf
    cases hf
  all_goals
    rcases hlive hn with hn' | ⟨hpast, hfresh⟩
    · rw [hr'] at hn'
      cases hn'
    refine ⟨hpast, fun hp => ?_⟩
  · rcases hfresh with ⟨hnone, -⟩ | hsome
    · rcases hfile with hf | hf | ⟨r₁, hr₁, -⟩
      · exact hf.trans hnone
      · exact hf
      · rw [hn] at hr₁
        cases hr₁
    · rw [hsome.2 r' hr'] at hp
      cases hp
  · rw [hv] at hp
    cases hp

/-- **A game without persistence does not come back.** -/
theorem Turn.ended {w : World} {id : String} {a : Act} {x y : Place} (h : Turn w id a x y) (hs : ¬ w.Aliased id)
    (hx : x = w.place id) (he : x.Ended) : y.Ended ∧ (x.live = none → y.live = none) := by
  obtain ⟨hfile, hlive⟩ := h.filing hs
  have gone : x.live = none → y.live = none := fun hn => by
    rcases hlive hn with hn' | ⟨-, ⟨-, hpast⟩ | ⟨hf, -⟩⟩
    · exact hn'
    · exact absurd hpast he.past
    · exact absurd he.file hf
  refine ⟨⟨h.past_ne he.past, ?_, fun r' hr' => ?_⟩, gone⟩
  · rcases hfile with hf | hf | ⟨r, hr, hp⟩
    · exact hf.trans he.file
    · exact hf
    · rw [(he.live r hr).1] at hp
      cases hp
  · rcases (h.change hx).roster hr' with ⟨r, hr, hst, -, hv, -⟩ | ⟨r, hr, -, hst, -, -⟩ | ⟨hn, -, -⟩ | ⟨hn, -⟩
    · exact ⟨hv.trans (he.live r hr).1, hst.trans (he.live r hr).2⟩
    · rw [(he.live r hr).2] at hst
      cases hst
    · rw [gone hn] at hr'
      cases hr'
    · rw [gone hn] at hr'
      cases hr'

namespace Server

/-- **The step brings a stored account back over the account in memory** of the same identifier. -/
def Doubles (env : Env) (s : Server) (c : Command) : Prop :=
  ∃ t cid d p, s.Authenticates env c t cid d ∧ (t.expire env.now).Recalls env d p ∧
    ((t.expire env.now).players.get p.id).isSome

theorem Displaces.doubles {env : Env} {s : Server} {c : Command} (h : s.Displaces env c) : s.Doubles env c := by
  obtain ⟨t, cid, d, p, q, ha, hp, hq, -⟩ := h
  exact ⟨t, cid, d, p, ha, hp, by rw [hq]; rfl⟩

/-- What brings an account back finds none in memory. -/
theorem Does.fresh {env : Env} {s : Server} {c : Command} {a : Act} {w : World} (h : s.Does env c a w)
    (hg : ¬ s.Doubles env c) {cid : Nat} {id : String} (ha : a = .recalled cid id) : w.seats id = none := by
  subst ha
  cases h with
  | created hauth hanon hnew hn => exact hn
  | recalled hauth hp =>
    by_contra hno
    obtain ⟨q, hq⟩ := Option.ne_none_iff_exists'.1 hno
    obtain ⟨pl, hpl, -⟩ := seats_some hq
    exact hg ⟨_, cid, _, _, hauth, hp, by rw [hpl]; rfl⟩

end Server

/-- What a run that doubles no account keeps. -/
structure World.Steady (w : World) : Prop where
  seated : w.Seated
  consistent : w.Consistent
  counted : w.Counted
  manned : w.Manned
  filed : w.Filed
  unfiled : ∀ id, (w.place id).Unfiled

namespace World.Steady

omit [Extern] in
theorem not_aliased {w : World} (h : w.Steady) {id : String} {r : Room} (hr : w.rooms id = some r) : ¬ w.Aliased id :=
  h.filed.not_aliased (h.filed.live hr)

theorem move {a : Act} {w w' : World} (h : Move a w w') (hk : w.Keyed) (hw : w.Steady)
    (hfresh : ∀ cid id, a = .recalled cid id → w.seats id = none) : w'.Steady := by
  have hturn := fun id => h.turn hk hw.seated id
  have hcounted := h.counted hw.seated hw.counted
  have hfiled := h.filed hk hw.filed
  have hseated := h.seated hw.seated
  obtain ⟨w₁, he, hsent⟩ := h
  refine ⟨hseated, hsent.consistent (he.consistent (fun cid id q ha hq => ?_) hw.seated hw.consistent), hcounted,
    hsent.manned (he.manned hk hw.seated hw.consistent hw.manned), hfiled, fun id r hr => ?_⟩
  · rw [hfresh cid id ha] at hq
    cases hq
  · exact (hturn id).unfiled (hw.filed.not_aliased (hfiled.live hr)) rfl (fun r hr => hw.counted.rooms hr) (hw.unfiled id) r hr

end World.Steady

/-- A game without persistence has this account on its fixed roster, and while it is live, the account this password. -/
structure World.Keeps (id p pw : String) (w : World) : Prop where
  ended : (w.place id).Ended
  kept : ∀ r, w.rooms id = some r → r.fixed = true ∧ p ∈ r.players ∧ ∃ q, w.seats p = some q ∧ q.password = pw

theorem World.Keeps.move {id p pw : String} {a : Act} {w w' : World} (h : Move a w w') (hk : w.Keyed) (hw : w.Steady)
    (hid : lowerText id = id) (hfresh : ∀ cid x, a = .recalled cid x → w.seats x = none) (hkeep : w.Keeps id p pw) :
    w'.Keeps id p pw := by
  obtain ⟨hended, hgone⟩ := (h.turn hk hw.seated id).ended (hw.filed.not_aliased hid) rfl hkeep.ended
  refine ⟨hended, fun r' hr' => ?_⟩
  rcases (h.change hk hw.seated id).roster hr' with ⟨r, hr, -, hf, -, hpl⟩ | ⟨r, hr, -, hst, -, -⟩ | ⟨hn, -, -⟩ | ⟨hn, -⟩
  · obtain ⟨hfixed, hp, q, hq, hpw⟩ := hkeep.kept r hr
    refine ⟨hf.trans hfixed, hpl ▸ hp, ?_⟩
    obtain ⟨w₁, he, l, queue, -, -, rfl⟩ := h
    rcases he.account hq with ⟨q', hq', hpw' | ⟨cid, ha⟩⟩ | ⟨-, hno⟩
    · exact ⟨q', hq', hpw'.trans hpw⟩
    · rw [hfresh cid p ha] at hq
      cases hq
    · exact absurd hp (hno id r hr hfixed)
  · rw [(hkeep.ended.live r hr).2] at hst
    cases hst
  all_goals
    rw [show w'.rooms id = none from hgone hn] at hr'
    cases hr'

namespace Server

omit [Extern] in
theorem boot_steady {config : Config} {store : Store} (push : Bool) (hst : store.Filed) (hc : store.Counted) :
    (boot config store push).world.Steady :=
  ⟨boot_seated config store push, boot_consistent config store push, ⟨(fun h => nomatch h), (fun h => hc h)⟩,
    (fun h => nomatch h), boot_filed config push hst, fun _ _ h => nomatch h⟩

theorem Run.steady {config : Config} {store : Store} {push : Bool} {s : Server} (hst : store.Filed) (hc : store.Counted)
    (h : Run (fun env s c => ¬ s.Doubles env c) (boot config store push) s) : s.world.Steady :=
  Run.invariant (I := World.Steady)
    (fun _ _ _ _ _ _ hg hd hb hm hw => hw.move hm hb.keyed (fun _ _ ha => hd.fresh hg ha)) h
    (boot_base config store push) (boot_steady push hst hc)

/-- What a run leaves is again a store of files of counted rooms. -/
theorem Run.store_counted {G : Env → Server → Command → Prop} {config : Config} {store : Store} {push : Bool} {s : Server}
    (hc : store.Counted) (h : Run G (boot config store push) s) : s.store.Counted := by
  have hw : s.world.Seated ∧ s.world.Counted := Run.invariant (I := fun w => w.Seated ∧ w.Counted)
    (fun _ _ _ _ _ _ _ _ _ hm hw => ⟨hm.seated hw.1, hm.counted hw.1 hw.2⟩) h (boot_base config store push)
    ⟨boot_seated config store push, (fun h => nomatch h), (fun h => hc h)⟩
  exact fun _ _ _ hk => hw.2.files hk

omit [Extern] in
theorem empty_counted : Store.empty.Counted := fun h => nomatch h

/-- **Who may come back gets in.** -/
theorem enter_returns {s : Server} (hcount : s.world.Counted) {id p : String} {r : Room} {a : Player}
    (hr : s.rooms.get id = some r) (hstart : r.started = true) (ha : s.players.get p = some a) (hroom : a.room = none)
    (hn : p ∉ r.active) (hrej : r.rejoin p = true) (env : Env) (pw : Value) :
    ∃ t, s.enter env p id pw = .ok t ∧ (∃ r', t.rooms.get id = some r' ∧ p ∈ r'.active) ∧
      ∃ b, t.players.get p = some b ∧ b.room = some id := by
  have hplace := (hcount.rooms hr).place hrej hn
  have herr : entryError r p pw = none := by
    unfold entryError
    rw [hstart, hrej]
    simp only [Bool.not_true, Bool.false_and, Bool.and_false, Bool.false_eq_true, if_false]
    exact if_neg (Nat.not_le_of_lt hplace)
  have henter : s.enter env p id pw = .ok (s.seatIn env p id a none r) := by
    unfold enter
    rw [ha]
    dsimp only [Out.unwrap]
    rw [hroom]
    dsimp only
    rw [if_pos (IndexMap.contains_iff.2 ⟨r, hr⟩)]
    dsimp only
    rw [hr]
    dsimp only
    rw [herr]
  obtain ⟨l, q, -, -, hw⟩ := admit_world env s p id a none r
  refine ⟨_, henter, ⟨joined r p, ?_, joined_mem.2 (.inl rfl)⟩, ?_⟩
  · have hrooms := congrArg World.rooms hw
    exact (congrFun hrooms id).trans (Function.update_self ..)
  · have hseats := (congrFun (congrArg World.seats hw) p).trans (Function.update_self ..)
    obtain ⟨b, hb, hseat⟩ := seats_some hseats
    exact ⟨b, hb, congrArg Seat.room hseat⟩

/-- **A seat kept is a seat available.**  In every run that brings no stored account back over one in memory: an account in
no room that may come back to a live started room, and is not in it, enters with whatever password; and the accounts on
the fixed roster of a live room without persistence are in memory, each with the same password as long as the room is
live. -/
theorem kept_seats_are_available {config : Config} {store : Store} {push : Bool} {s : Server} (hst : store.Filed)
    (hc : store.Counted) (h : Run (fun env s c => ¬ s.Doubles env c) (boot config store push) s) :
    (∀ id r p a, s.rooms.get id = some r → r.started = true → s.players.get p = some a → a.room = none → p ∉ r.active →
      r.rejoin p = true → ∀ env pw, ∃ t, s.enter env p id pw = .ok t ∧
        (∃ r', t.rooms.get id = some r' ∧ p ∈ r'.active) ∧ ∃ b, t.players.get p = some b ∧ b.room = some id) ∧
    ∀ id r, s.rooms.get id = some r → r.fixed = true → r.persistent = false → ∀ p ∈ r.players,
      ∃ a, s.players.get p = some a ∧ ∀ env c t, ¬ s.Doubles env c → s.step env c = some t →
        (t.rooms.get id).isSome → ∃ b, t.players.get p = some b ∧ b.password = a.password := by
  have hb := Run.base h (boot_base config store push)
  have hs := h.steady hst hc
  refine ⟨fun id r p a hr hstart ha hroom hn hrej env pw =>
    enter_returns hs.counted hr hstart ha hroom hn hrej env pw, fun id r hr hf hv p hp => ?_⟩
  obtain ⟨q, hq⟩ := hs.manned hr hf hv p hp
  obtain ⟨a, ha, rfl⟩ := seats_some hq
  refine ⟨a, ha, fun env c t hg hstep hlive => ?_⟩
  have hstart : r.started = true := by
    by_contra hno
    rw [((hs.counted.rooms hr).waiting (eq_false_of_ne_true hno)).1] at hf
    cases hf
  have hkeep : s.world.Keeps id p a.password :=
    ⟨⟨(hs.unfiled id r hr).1, (hs.unfiled id r hr).2 hv, fun r' hr' => by
      rw [show (s.world.place id).live = some r from hr] at hr'
      cases hr'
      exact ⟨hv, hstart⟩⟩, fun r' hr' => by
      rw [show s.world.rooms id = some r from hr] at hr'
      cases hr'
      exact ⟨hf, hp, _, hq, rfl⟩⟩
  have hid := hs.filed.live hr
  obtain ⟨-, -, hkept⟩ := (step_chain hb hstep).invariant (I := fun w => w.Base config ∧ w.Steady ∧ w.Keeps id p a.password)
    (fun x w w' hd hm hw => ⟨hm.base hw.1, hw.2.1.move hm hw.1.keyed (fun _ _ hx => hd.fresh hg hx),
      hw.2.2.move hm hw.1.keyed hw.2.1 hid (fun _ _ hx => hd.fresh hg hx)⟩) ⟨hb, hs, hkeep⟩
  obtain ⟨r', hr'⟩ := Option.isSome_iff_exists.1 hlive
  obtain ⟨-, -, q', hq', hpw⟩ := hkept.kept r' hr'
  obtain ⟨b, hb', rfl⟩ := seats_some hq'
  exact ⟨b, hb', hpw⟩

/-- Without a session directory no stored account comes back. -/
theorem not_doubles_of_disabled {env : Env} {s : Server} {c : Command} (h : s.store.enabled = false) :
    ¬ s.Doubles env c := by
  rintro ⟨t, cid, d, p, ⟨⟩, hp, -⟩
  exact not_recalls_of_disabled (show (s.setConnection _ _).store.enabled = false from h) hp

end Server

namespace Trace

open Server

/-- The first account starts a game for those who are in, and the guest loses its connection. -/
def dropped : List (Env × Command) := shared ++ [(.plain 1, .tells 1 startGame), (.plain 2, .disconnect 2)]

/-- The guest's identifier in capitals, and its password. -/
def guestBack : Value := message "authenticate"
  [("playerId", .str "ABCDEF01-2345-4000-8000-000000000002"), ("password", .str "secret-2")]

def startFixed : Value := message "startGame" [("fixedRoster", .bool true)]

/-- The guest comes back in capitals, goes, and expires before the game starts. -/
def doubled : List (Env × Command) := shared ++
  [(.plain 2, .connected 3), (.plain 2, .tells 3 guestBack), (.plain 3, .disconnect 3),
    (.plain 300003, .connected 4), (.plain 300003, .tells 4 signUp), (.plain 300003, .tells 1 startFixed)]

end Trace

namespace Server

omit [Extern] in
theorem kept_seats_are_available_dropped :
    letI := Extern.reading [Trace.signUp, Trace.createRoom, Trace.enterRoom, Trace.startGame]
    ∃ s r a, Run (fun env s c => ¬ s.Doubles env c) (boot .default { Store.empty with enabled := false } false) s ∧
      s.rooms.get Trace.room = some r ∧ r.fixed = true ∧ s.players.get Trace.guest = some a ∧
      ∃ t, s.enter (Env.plain 3) Trace.guest Trace.room .null = .ok t ∧
        ∃ b, t.players.get Trace.guest = some b ∧ b.room = some Trace.room := by
  let _ := Extern.reading [Trace.signUp, Trace.createRoom, Trace.enterRoom, Trace.startGame]
  have h : (exec (fun _ s _ => !s.store.enabled) Trace.dropped
      (boot .default { Store.empty with enabled := false } false)).any (fun s =>
      (s.rooms.get Trace.room).any (fun r => r.started && r.fixed && r.rejoin Trace.guest && !r.active.contains Trace.guest) &&
        (s.players.get Trace.guest).any (fun a => a.room.isNone)) = true := by
    decide +kernel
  obtain ⟨s, hs, h⟩ := (Option.any_eq_true _ _).1 h
  rw [Bool.and_eq_true] at h
  obtain ⟨r, hr, hroom⟩ := (Option.any_eq_true _ _).1 h.1
  obtain ⟨a, ha, hnone⟩ := (Option.any_eq_true _ _).1 h.2
  simp only [Bool.and_eq_true, Bool.not_eq_true'] at hroom
  have hrun := exec_run (G := fun env s c => ¬ s.Doubles env c)
    (fun _ _ _ h => not_doubles_of_disabled (by simpa using h)) hs
  have hst : Store.Filed { Store.empty with enabled := false } := fun h => empty_filed h
  have hc : Store.Counted { Store.empty with enabled := false } := fun h => empty_counted h
  have hkept := kept_seats_are_available hst hc hrun
  obtain ⟨t, ht, -, hb⟩ := hkept.1 _ r _ a hr hroom.1.1.1 ha (Option.isNone_iff_eq_none.1 hnone)
    (fun hm => by rw [IndexSet.contains_iff.2 hm] at hroom; exact absurd hroom.2 (by decide)) hroom.1.2 (Env.plain 3) .null
  exact ⟨s, r, a, hrun, hr, hroom.1.1.2, ha, t, ht, hb⟩

omit [Extern] in
/-- **A guest that came back in capitals is on a fixed roster, and not in memory.** -/
theorem reauthenticated_guest_not_kept :
    letI := Extern.reading [Trace.signUp, Trace.createRoom, Trace.enterRoom, Trace.guestBack, Trace.startFixed]
    ∃ s r, Run (fun _ _ _ => True) (boot .default Store.empty false) s ∧ s.rooms.get Trace.room = some r ∧
      r.fixed = true ∧ r.persistent = false ∧ Trace.guest ∈ r.players ∧ s.players.get Trace.guest = none := by
  let _ := Extern.reading [Trace.signUp, Trace.createRoom, Trace.enterRoom, Trace.guestBack, Trace.startFixed]
  have h : (exec (fun _ _ _ => true) Trace.doubled (boot .default Store.empty false)).any (fun s =>
      (s.rooms.get Trace.room).any (fun r => r.fixed && !r.persistent && r.players.contains Trace.guest) &&
        (s.players.get Trace.guest).isNone) = true := by
    decide +kernel
  obtain ⟨s, hs, h⟩ := (Option.any_eq_true _ _).1 h
  rw [Bool.and_eq_true] at h
  obtain ⟨r, hr, hroom⟩ := (Option.any_eq_true _ _).1 h.1
  simp only [Bool.and_eq_true, Bool.not_eq_true'] at hroom
  exact ⟨s, r, exec_run (fun _ _ _ _ => trivial) hs, hr, hroom.1.1, hroom.1.2, IndexSet.contains_iff.1 hroom.2,
    Option.isNone_iff_eq_none.1 h.2⟩

end Server
end Relay
