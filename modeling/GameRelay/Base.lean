import GameRelay.HandleMoves
/-!
# Base — what every move keeps

The settings never change, every entry stays under its own identifier, and every queued text frame is one that was
parsed and validated.
-/
namespace Relay

open Function (update)

theorem releaseAll_some {seats : String → Option Seat} {ids : List String} {x : String} {q : Seat}
    (h : releaseAll seats ids x = some q) :
    (x ∉ ids ∧ seats x = some q) ∨ (x ∈ ids ∧ ∃ q₀, seats x = some q₀ ∧ q = q₀.release) := by
  unfold releaseAll at h
  split at h
  · obtain ⟨q₀, hq₀, rfl⟩ := Option.map_eq_some_iff.1 h
    exact .inr ⟨by assumption, q₀, hq₀, rfl⟩
  · exact .inl ⟨by assumption, h⟩

theorem releaseAll_id {seats : String → Option Seat} (hk : ∀ {id q}, seats id = some q → q.id = id) {ids : List String}
    {x : String} {q : Seat} (h : releaseAll seats ids x = some q) : q.id = x := by
  rcases releaseAll_some h with ⟨-, hq⟩ | ⟨-, q₀, hq, rfl⟩
  · exact hk hq
  · show q₀.id = x
    exact hk hq

/-- A room of `dropSeats` is the room it was, up to a reservation. -/
theorem dropSeats_some {rooms : String → Option Room} {p x : String} {d : Bool} {r : Room}
    (h : dropSeats rooms p d x = some r) : ∃ r₀, rooms x = some r₀ ∧ (r = r₀ ∨ r = r₀.dropReservation p) := by
  unfold dropSeats at h
  split at h
  · exact ⟨r, h, .inl rfl⟩
  · obtain ⟨r₀, hr₀, rfl⟩ := Option.map_eq_some_iff.1 h
    exact ⟨r₀, hr₀, .inr rfl⟩

theorem dropSeats_id {rooms : String → Option Room} (hk : ∀ {id r}, rooms id = some r → r.id = id) {p x : String}
    {d : Bool} {r : Room} (h : dropSeats rooms p d x = some r) : r.id = x := by
  obtain ⟨r₀, hr₀, rfl | rfl⟩ := dropSeats_some h
  · exact hk hr₀
  · show r₀.id = x
    exact hk hr₀

/-- An entry of an updated map is the new one or an old one. -/
theorem update_some {κ β : Type} [DecidableEq κ] {f : κ → Option β} {k x : κ} {o : Option β} {b : β}
    (h : update f k o x = some b) : (x = k ∧ o = some b) ∨ (x ≠ k ∧ f x = some b) := by
  rw [Function.update_apply] at h
  split at h
  · exact .inl ⟨by assumption, h⟩
  · exact .inr ⟨by assumption, h⟩

theorem handedOver_id (r : Room) (p first : String) : (handedOver r p first).id = r.id := by
  unfold handedOver; split <;> rfl

theorem joined_id (r : Room) (p : String) : (Server.joined r p).id = r.id := by
  unfold Server.joined; dsimp only; split <;> rfl

theorem timeoutUpload_id (now : Nat) (r : Room) : (Server.timeoutUpload now r).id = r.id := by
  unfold Server.timeoutUpload; split <;> rfl

theorem World.Sent.keyed {w w' : World} (h : w.Sent w') (hk : w.Keyed) : w'.Keyed := by
  obtain ⟨l, q, -, -, rfl⟩ := h
  exact ⟨fun h => hk.seats h, fun h => hk.rooms h⟩

theorem World.Left.keyed {p : String} {d : Bool} {w w' : World} (h : w.Left p d w') (hk : w.Keyed) : w'.Keyed := by
  have seats : ∀ {ids : List String} {id : String} {q : Seat}, releaseAll w.seats ids id = some q → q.id = id :=
    fun h => releaseAll_id hk.seats h
  have rooms : ∀ {x : String} {r : Room}, dropSeats w.rooms p d x = some r → r.id = x :=
    fun h => dropSeats_id hk.rooms h
  have set : ∀ {id x : String} {r r' : Room}, dropSeats w.rooms p d id = some r → r'.id = r.id → ∀ {y : Room},
      update (dropSeats w.rooms p d) id (some r') x = some y → y.id = x := by
    intro id x r r' hr hid y hy
    rcases update_some hy with ⟨rfl, h⟩ | ⟨-, h⟩
    · cases h; exact hid.trans (rooms hr)
    · exact rooms h
  have unset : ∀ {id x : String} {y : Room}, update (dropSeats w.rooms p d) id none x = some y → y.id = x := by
    intro id x y hy
    rcases update_some hy with ⟨-, hy⟩ | ⟨-, hy⟩
    · cases hy
    · exact rooms hy
  cases h with
  | nowhere hq hr => exact ⟨seats, rooms⟩
  | deleted hq hid hr he hp => exact ⟨seats, unset⟩
  | slept hq hid hr he hp hs =>
    cases hs
    exact ⟨seats, unset⟩
  | kept hq hid hr he hp => exact ⟨seats, set hr (remains_keeps _ _ _).1⟩
  | stayed hq hid hr hf => exact ⟨seats, set hr ((handedOver_id _ _ _).trans (remains_keeps _ _ _).1)⟩

variable [Extern]

theorem Edit.id_eq {c : Config} {jobs jobs' : String → List Value} {p : String} {d : Value} {r r' : Room}
    {es : List Event} (h : Edit c jobs p d r r' es jobs') : r'.id = r.id := by
  cases h with
  | none => rfl
  | settings ho hs hmax hsize hfit => unfold joinClosed; split <;> rfl
  | started ho hs => rfl
  | metadata ho hfit => rfl
  | pushed ho => rfl
  | began hp ho hrev hgen hreq hsize => rfl
  | commit hp ho hu hc => rfl

theorem World.Found.id_eq {w : World} {id : String} {r : Room} {loaded : Option Room} (h : w.Found id r loaded)
    (hk : w.Keyed) : r.id = id := by
  rcases h with ⟨-, hr⟩ | ⟨-, -, now, hd, st, -, -, -, rfl⟩
  · exact hk.rooms hr
  · rfl

theorem Effect.keyed {a : Act} {w w' : World} (h : Effect a w w') (hk : w.Keyed) : w'.Keyed := by
  have seat : ∀ {k x : String} {q₀ q : Seat}, q₀.id = k → update w.seats k (some q₀) x = some q → q.id = x := by
    intro k x q₀ q hid hq
    rcases update_some hq with ⟨rfl, h⟩ | ⟨-, h⟩
    · cases h; exact hid
    · exact hk.seats h
  have room : ∀ {k x : String} {r₀ r : Room}, r₀.id = k → update w.rooms k (some r₀) x = some r → r.id = x := by
    intro k x r₀ r hid hr
    rcases update_some hr with ⟨rfl, h⟩ | ⟨-, h⟩
    · cases h; exact hid
    · exact hk.rooms h
  have gone : ∀ {k x : String} {r : Room}, update w.rooms k none x = some r → r.id = x := by
    intro k x r hr
    rcases update_some hr with ⟨-, hr⟩ | ⟨-, hr⟩
    · cases hr
    · exact hk.rooms hr
  cases h with
  | idle => exact hk
  | connected h => exact ⟨hk.seats, hk.rooms⟩
  | unlinked hl hq => exact ⟨hk.seats, hk.rooms⟩
  | gone hl hp hq hc h => exact h.keyed ⟨seat (hk.seats hq :), hk.rooms⟩
  | queued hd => exact ⟨hk.seats, hk.rooms⟩
  | expired hq hc hf =>
    refine ⟨fun {x q} hx => ?_, fun {x r} hx => ?_⟩
    · rcases update_some hx with ⟨-, hx⟩ | ⟨-, hx⟩
      · cases hx
      · exact hk.seats hx
    · obtain ⟨r₀, hr₀, rfl⟩ := Option.map_eq_some_iff.1 hx
      show r₀.id = x
      exact hk.rooms hr₀
  | bound hl hp hq => exact ⟨seat (hk.seats hq :), hk.rooms⟩
  | recalled hl hp => exact ⟨seat rfl, hk.rooms⟩
  | rekeyed hl hu => exact ⟨hk.seats, hk.rooms⟩
  | departed h => exact h.keyed hk
  | left h => exact h.keyed hk
  | entered hq hc hr hf he => exact ⟨seat (hk.seats hq :), room ((joined_id _ _).trans (hf.id_eq hk))⟩
  | refused hm hid hpw hq hroom hr ha hp he => exact ⟨hk.seats, gone⟩
  | created hq hc hr hid hfile hhist hlow hroom hmax hfit =>
    exact ⟨seat (hk.seats hq :), room (by rw [joined_id, hroom]; rfl)⟩
  | edited hs he => exact ⟨hk.seats, room (he.id_eq.trans (hk.rooms hs.2))⟩
  | wrote hs hp hb hu hid hst => exact ⟨hk.seats, room (hk.rooms hs.2 :)⟩
  | rejected hs hp hb hu hid hst => exact ⟨hk.seats, room (hk.rooms hs.2 :)⟩
  | timedOut =>
    refine ⟨hk.seats, fun {x r} hx => ?_⟩
    obtain ⟨r₀, hr₀, rfl⟩ := Option.map_eq_some_iff.1 hx
    exact (timeoutUpload_id _ r₀).trans (hk.rooms hr₀)
  | slept hr hp ha h =>
    cases h
    exact ⟨hk.seats, gone⟩

theorem Move.keyed {a : Act} {w w' : World} (h : Move a w w') (hk : w.Keyed) : w'.Keyed := by
  obtain ⟨w₁, he, hs⟩ := h
  exact hs.keyed (he.keyed hk)

/-- Every queued text frame parses to a validated message. -/
def World.Queued (w : World) : Prop :=
  ∀ d ∈ w.queue, ∀ t, d.frame = .text t → ∃ v, Protocol.parse t = some v ∧
    Protocol.validate v w.config.maxRoomPlayers w.config.maxAccounts = true

omit [Extern] in
/-- Leaving touches neither the settings nor the queue nor the links. -/
theorem World.Left.frame {p : String} {d : Bool} {w w' : World} (h : w.Left p d w') :
    w'.config = w.config ∧ w'.queue = w.queue ∧ w'.links = w.links := by
  cases h with
  | slept hq hid hr he hp hs => cases hs; exact ⟨rfl, rfl, rfl⟩
  | _ => exact ⟨rfl, rfl, rfl⟩

/-- No effect changes the settings, and only queueing lengthens the queue. -/
theorem Effect.frame {a : Act} {w w' : World} (h : Effect a w w') :
    w'.config = w.config ∧ (w'.queue = w.queue ∨ ∃ d, w'.queue = w.queue ++ [d] ∧
      ∀ t, d.frame = .text t → ∃ v, Protocol.parse t = some v ∧
        Protocol.validate v w.config.maxRoomPlayers w.config.maxAccounts = true) := by
  cases h with
  | gone hl hp hq hc h => exact ⟨h.frame.1, .inl h.frame.2.1⟩
  | departed h => exact ⟨h.frame.1, .inl h.frame.2.1⟩
  | left h => exact ⟨h.frame.1, .inl h.frame.2.1⟩
  | slept hr hp ha h => cases h; exact ⟨rfl, .inl rfl⟩
  | queued hd => exact ⟨rfl, .inr ⟨_, rfl, hd⟩⟩
  | _ => exact ⟨rfl, .inl rfl⟩

/-- What every move keeps. -/
structure World.Base (c : Config) (w : World) : Prop where
  config : w.config = c
  keyed : w.Keyed
  queued : w.Queued

theorem Move.base {a : Act} {w w' : World} {c : Config} (h : Move a w w') (hb : w.Base c) : w'.Base c := by
  obtain ⟨w₁, he, hs⟩ := h
  have hf := he.frame
  have hk := Move.keyed ⟨w₁, he, hs⟩ hb.keyed
  obtain ⟨l, q, -, hq, rfl⟩ := hs
  refine ⟨hf.1.trans hb.config, hk, fun d hd t ht => ?_⟩
  have hd₁ := hq hd
  show ∃ v, _ ∧ Protocol.validate v w₁.config.maxRoomPlayers w₁.config.maxAccounts = true
  rw [hf.1]
  rcases hf.2 with hq' | ⟨d', hq', hval⟩
  · rw [hq'] at hd₁
    exact hb.queued d hd₁ t ht
  · rw [hq', List.mem_append, List.mem_singleton] at hd₁
    rcases hd₁ with hd₁ | rfl
    · exact hb.queued d hd₁ t ht
    · exact hval t ht

theorem World.Base.chain {P : Act → World → Prop} {w w' : World} {c : Config} (hb : w.Base c)
    (h : Chain Move P w w') : w'.Base c :=
  h.invariant (fun _ _ _ _ hm hb => hm.base hb) hb

end Relay
