import GameRelay.Changes
import GameRelay.Commits
import GameRelay.Emits
import GameRelay.Trace
/-!
# Downloads — a member reads one saved state

A download is a sequence of `getSessionChunk` requests for one revision, each for the bytes after those received, with
any acts of anyone in between that leave the room live (`Download`).  A live room's state changes only with its
revision (`Session.Step.saved`), so what a download received is the beginning of that revision's state; each answered
request adds at least one byte, and a download that no commit overtook ends with the whole state.
-/
namespace Relay

/-- **The state of a live room changes only with its revision, which goes up**; a saved room stays one. -/
theorem Session.Step.saved {id : String} {past es : List Event} {s s' : Session} (h : Step id past (some s) es (some s')) :
    (s.persistent = true → s'.persistent = true) ∧
      ((s'.revision = s.revision ∧ s'.state = s.state) ∨ s.revision < s'.revision) := by
  cases h with
  | started => exact ⟨fun _ => rfl, .inl ⟨rfl, rfl⟩⟩
  | committed => exact ⟨fun h => h, .inr (Nat.lt_succ_self _)⟩
  | _ => exact ⟨fun h => h, .inl ⟨rfl, rfl⟩⟩

/-- What was committed since the room woke is not newer than the live room, and the same where it is as new. -/
def Session.Settled (id : String) (o : Option Session) (past : List Event) : Prop :=
  ∀ pre q n b post, past = pre ++ .committed id q n b :: post → (∀ x, .woken x ∉ post) → ∀ s, o = some s →
    n ≤ s.revision ∧ (n = s.revision → b = s.state)

/-- A commit in a longer history is in the old one, or among the new events. -/
theorem committed_append {id q : String} {n : Nat} {b : Bytes} {past es pre post : List Event}
    (h : past ++ es = pre ++ .committed id q n b :: post) :
    (∃ post', past = pre ++ .committed id q n b :: post' ∧ post = post' ++ es) ∨
      ∃ pre', es = pre' ++ .committed id q n b :: post := by
  rcases List.append_eq_append_iff.1 h with ⟨m, -, hes⟩ | ⟨m, hpast, hpost⟩
  · exact .inr ⟨m, hes⟩
  · cases m with
    | nil => exact .inr ⟨[], hpost.symm⟩
    | cons e m =>
      rw [List.cons_append, List.cons.injEq] at hpost
      obtain ⟨rfl, rfl⟩ := hpost
      exact .inl ⟨m, hpast, rfl⟩

theorem Session.Step.settled {id : String} {past es : List Event} {o o' : Option Session} (h : Step id past o es o')
    (hs : Settled id o past) : Settled id o' (past ++ es) := by
  -- no commit among the new events, and the session's state stays
  have same : (∀ q n b, .committed id q n b ∉ es) →
      (∀ s', o' = some s' → ∃ s, o = some s ∧ s'.revision = s.revision ∧ s'.state = s.state) →
      Settled id o' (past ++ es) := by
    intro hno hkeep pre q n b post he hw s' hs'
    rcases committed_append he with ⟨post', hpast, rfl⟩ | ⟨pre', rfl⟩
    · obtain ⟨s, rfl, hrev, hst⟩ := hkeep s' hs'
      rw [hrev, hst]
      exact hs pre q n b post' hpast (fun x hx => hw x (List.mem_append_left _ hx)) s rfl
    · exact absurd (List.mem_append_right _ (List.mem_cons_self ..)) (hno q n b)
  cases h with
  | quiet o => rw [List.append_nil]; exact hs
  | gone o hes => exact fun _ _ _ _ _ _ _ _ hs' => nomatch hs'
  | created hpast hp hg hu =>
    subst hpast
    intro pre q n b post he
    rcases committed_append he with ⟨post', hnil, -⟩ | ⟨pre', he'⟩
    · exact absurd hnil (by simp)
    · cases pre' with
      | nil => cases he'
      | cons e pre' => exact absurd (List.cons.inj he').2 (by simp)
  | woken hp hu =>
    intro pre q n b post he hw
    rcases committed_append he with ⟨post', -, rfl⟩ | ⟨pre', he'⟩
    · exact absurd (List.mem_append_right _ (List.mem_cons_self ..)) (hw id)
    · match pre', he' with
      | [_], he' => cases he'
      | _ :: _ :: pre', he' => exact absurd (List.cons.inj (List.cons.inj he').2).2 (by simp)
  | committed hp hu hfull =>
    rename_i s u
    intro pre q n b post he hw s' hs'
    cases hs'
    rcases committed_append he with ⟨post', hpast, rfl⟩ | ⟨pre', he'⟩
    · have hle := (hs pre q n b post' hpast (fun x hx => hw x (List.mem_append_left _ hx)) s rfl).1
      exact ⟨Nat.le_succ_of_le hle, fun hn => absurd hn (Nat.ne_of_lt (Nat.lt_succ_of_le hle))⟩
    · cases pre' with
      | nil => cases he'; exact ⟨Nat.le_refl _, fun _ => rfl⟩
      | cons e pre' => exact absurd (List.cons.inj he').2 (by simp)
  | _ => exact same (by simp) (fun s' hs' => by cases hs'; exact ⟨_, rfl, rfl, rfl⟩)

/-- A request for the saved state. -/
def Trace.getSessionChunk : Value := message "getSessionChunk"
  [("requestId", .str Trace.request.text), ("revision", .ofNat 1), ("offset", .ofNat 0)]

namespace Server

variable [Extern]

/-- The account sends this message of the session protocol, on its connection and from inside the room. -/
structure Requests (t : Server) (cid : Nat) (p id m : String) (v : Value) : Prop where
  valid : ∃ txt, t.Valid txt v m
  speaks : t.Speaks cid p
  sits : ∃ a, t.players.get p = some a ∧ a.room = some id

theorem Requests.handle {t : Server} {cid : Nat} {p id m : String} {v : Value} {r : Room} (h : t.Requests cid p id m v)
    (env : Env) (hm : m = "getSession" ∨ m = "getSessionChunk") (hr : t.rooms.get id = some r) :
    t.handle env cid p v = mapOut (putBack id) ((t.takeRoom id).session env p r m (v.idx "data")) := by
  obtain ⟨txt, hv⟩ := h.valid
  obtain ⟨a, ha, hroom⟩ := h.sits
  unfold Server.handle
  rw [hv.method]
  rcases hm with rfl | rfl
  all_goals simp [Out.unwrap, inRoom, ha, hroom, hr, roomMessage]

/-- **`getSession` reports the revision and the size of the state.** -/
theorem Requests.reported {t : Server} {cid : Nat} {p id : String} {v : Value} {r : Room}
    (h : t.Requests cid p id "getSession" v) (env : Env) (hr : t.rooms.get id = some r) (hp : r.persistent = true) :
    t.handle env cid p v = .ok (putBack id ((t.takeRoom id).reply p ((v.idx "data").idx "requestId")
      (.obj [("revision", .ofNat r.revision), ("generation", .ofNat r.generation), ("size", .ofNat r.state.length),
        ("startData", r.start)]), r)) := by
  rw [h.handle env (.inl rfl) hr]
  unfold session
  rw [hp, Bool.not_true, if_neg Bool.false_ne_true, if_pos rfl]
  rfl

/-- The account asks for the bytes of this revision from `off` on. -/
structure Asks (t : Server) (cid : Nat) (p id : String) (v : Value) (rev off : Nat) : Prop
    extends t.Requests cid p id "getSessionChunk" v where
  revision : (v.idx "data").idx "revision" = .ofNat rev
  offset : (v.idx "data").idx "offset" = .ofNat off

/-- The request is answered `stale_session`. -/
def AnswersStale (t u : Server) (p id : String) (v : Value) : Prop :=
  ∃ r, u = putBack id ((t.takeRoom id).errorReply p ((v.idx "data").idx "requestId") "stale_session", r)

/-- The request is answered with this frame. -/
def AnswersWith (t u : Server) (cid : Nat) (b : Bytes) : Prop := u.offered = t.offered ++ [(cid, .binary b)]

/-- **What a request for a chunk does.** -/
theorem Asks.handle {t : Server} {cid : Nat} {p id : String} {v : Value} {rev off : Nat} {r : Room}
    (h : t.Asks cid p id v rev off) (env : Env) (hr : t.rooms.get id = some r) (hp : r.persistent = true) :
    ∃ bid : Bytes, bid.length = 16 ∧ t.handle env cid p v = .ok (putBack id
      (if rev ≠ r.revision ∨ r.state.length ≤ off then
        (t.takeRoom id).errorReply p ((v.idx "data").idx "requestId") "stale_session"
      else (t.takeRoom id).bytes p (t.chunkFrame r bid off), r)) := by
  obtain ⟨txt, hv⟩ := h.valid
  have hd := Protocol.validate_data hv.valid hv.method
  simp only [Protocol.validData, Bool.and_eq_true] at hd
  obtain ⟨req, hreq, hu⟩ := Protocol.uuid_asStr hd.1.1.2
  obtain ⟨bid, hbid⟩ := Option.isSome_iff_exists.1 (parseUuid_isSome hu)
  refine ⟨bid, length_parseUuid hbid, ?_⟩
  have hrev : (Value.ofNat rev ≠ Value.ofNat r.revision) = (rev ≠ r.revision) := by
    simp only [Value.ofNat, ne_eq, Value.num.injEq, Number.pos.injEq]
  rw [h.toRequests.handle env (.inr rfl) hr]
  unfold session getSessionChunk
  rw [hp, h.offset, h.revision, hreq, Option.bind_some, hbid]
  simp only [Bool.not_true, Bool.false_eq_true, if_false, if_true, if_neg (by decide : ¬ "getSessionChunk" = "getSession"),
    Out.unwrap, show (Value.ofNat off).asU64 = some off from rfl, hrev]
  split <;> rfl

omit [Extern] in
theorem length_u32Bytes (n : Nat) : (u32Bytes n).length = 4 := rfl

omit [Extern] in
/-- **The frame of a chunk** carries the next bytes of the state, at least one, and passes the size check. -/
theorem chunkFrame_spec {t : Server} {r : Room} {bid : Bytes} {off : Nat} (hbid : bid.length = 16)
    (hpay : 21 < t.config.maxPayloadBytes) (hbuf : 31 < t.config.maxBufferedBytes) (hoff : off < r.state.length) :
    22 ≤ (t.chunkFrame r bid off).length ∧ t.config.fits (t.chunkFrame r bid off).length = true ∧
      r.state.take off ++ (t.chunkFrame r bid off).drop 21 =
        r.state.take (off + ((t.chunkFrame r bid off).length - 21)) := by
  unfold chunkFrame
  dsimp only
  generalize hn : min 32000 (min (t.config.maxPayloadBytes - 21) (min (t.config.maxBufferedBytes - 31)
    (r.state.length - off))) = n
  have hpos : 1 ≤ n ∧ n ≤ t.config.maxPayloadBytes - 21 ∧ n ≤ t.config.maxBufferedBytes - 31 ∧ n ≤ r.state.length - off := by
    omega
  have hhead : (3 :: (bid ++ u32Bytes off)).length = 21 := by
    rw [List.length_cons, List.length_append, hbid, length_u32Bytes]
  have hlen : ((r.state.drop off).take n).length = n := by
    rw [List.length_take, List.length_drop]
    omega
  rw [← List.cons_append, List.length_append, hhead, hlen]
  refine ⟨by omega, ?_, ?_⟩
  · unfold Config.fits
    rw [Bool.and_eq_true, decide_eq_true_eq, decide_eq_true_eq]
    omega
  · rw [← hhead, List.drop_left, hhead, Nat.add_sub_cancel_left, ← List.take_add]

/-- A refusal is no binary frame. -/
theorem errorReply_offered (s : Server) (p : String) (req : Value) (code : String) (cid : Nat) (b : Bytes) :
    (s.errorReply p req code).offered ≠ s.offered ++ [(cid, .binary b)] := by
  have hself : s.offered ≠ s.offered ++ [(cid, .binary b)] := by simp
  unfold errorReply reply send
  split
  · unfold sendC
    split
    · rename_i msg hmsg
      have htext : ∃ v, msg = .text v := by
        rcases Option.or_eq_some_iff.1 hmsg with h | ⟨-, h⟩
        · exact ⟨_, encoded_some h⟩
        · exact ⟨_, encoded_some h⟩
      obtain ⟨v, rfl⟩ := htext
      rw [raw_offered]
      split
      · simp
      · exact hself
    · exact hself
  · exact hself

/-- What is handed to `bytes` and passes the size check goes to the account's connection. -/
theorem bytes_offered {s : Server} {p : String} {b : Bytes} {cid : Nat} (hfit : s.config.fits b.length = true)
    (hc : s.connectionOf p = some cid) (hin : s.connections.contains cid = true) :
    (s.bytes p b).offered = s.offered ++ [(cid, .binary b)] := by
  unfold bytes
  rw [hfit, hc]
  dsimp only
  rw [raw_offered, if_pos hin]

/-- **Every request is answered**: `stale_session` exactly when the room has another revision or no byte there. -/
theorem Asks.answered {t : Server} {cid : Nat} {p id : String} {v : Value} {rev off : Nat} {r : Room}
    (h : t.Asks cid p id v rev off) (env : Env) (hr : t.rooms.get id = some r) (hp : r.persistent = true)
    (hpay : 21 < t.config.maxPayloadBytes) (hbuf : 31 < t.config.maxBufferedBytes) :
    ∃ u, t.handle env cid p v = .ok u ∧
      if rev ≠ r.revision ∨ r.state.length ≤ off then t.AnswersStale u p id v ∧ ∀ b, ¬ t.AnswersWith u cid b
      else ∃ b, t.AnswersWith u cid b ∧ 22 ≤ b.length ∧ t.config.fits b.length = true ∧
        r.state.take off ++ b.drop 21 = r.state.take (off + (b.length - 21)) := by
  obtain ⟨bid, hbid, hh⟩ := h.handle env hr hp
  refine ⟨_, hh, ?_⟩
  by_cases hstale : rev ≠ r.revision ∨ r.state.length ≤ off
  · rw [if_pos hstale, if_pos hstale]
    exact ⟨⟨r, rfl⟩, fun b => errorReply_offered (t.takeRoom id) p _ _ cid b⟩
  · rw [if_neg hstale, if_neg hstale]
    rw [not_or] at hstale
    obtain ⟨hlen, hfit, hbytes⟩ := chunkFrame_spec (t := t) hbid hpay hbuf (Nat.lt_of_not_le hstale.2)
    refine ⟨_, ?_, hlen, hfit, hbytes⟩
    obtain ⟨c, hc, -⟩ := Option.bind_eq_some_iff.1 h.speaks.1
    exact bytes_offered (s := t.takeRoom id) hfit h.speaks.2 (IndexMap.contains_iff.2 ⟨c, hc⟩)

/-- **A download**: requests for one revision of `size` bytes, each answered with a frame and each for the bytes after
those received, and any acts in between that leave the room live. -/
inductive Download (id p : String) (rev size : Nat) (w₀ : World) : List Bytes → World → Prop
  | start : Download id p rev size w₀ [] w₀
  | act {got : List Bytes} {w w' : World} {a : Act} (h : Download id p rev size w₀ got w) (ha : Move a w w')
      (hl : (w'.rooms id).isSome) : Download id p rev size w₀ got w'
  | chunk {got : List Bytes} {t u : Server} {env : Env} {cid : Nat} {v : Value} {b : Bytes}
      (h : Download id p rev size w₀ got t.world) (hlt : got.flatten.length < size)
      (ha : t.Asks cid p id v rev got.flatten.length) (hh : t.handle env cid p v = .ok u)
      (hb : t.AnswersWith u cid b) : Download id p rev size w₀ (got ++ [b.drop 21]) u.world

/-- The room is live and saved; while its revision is this one, so is its state. -/
def StillSaved (id : String) (rev : Nat) (state : Bytes) (w : World) : Prop :=
  ∃ r, w.rooms id = some r ∧ r.persistent = true ∧ rev ≤ r.revision ∧ (r.revision = rev → r.state = state)

/-- An act that leaves the room live. -/
theorem StillSaved.move {id : String} {rev : Nat} {state : Bytes} {a : Act} {w w' : World} (h : StillSaved id rev state w)
    (hk : w.Keyed) (hs : Sound id w) (hm : Move a w w') (hl : (w'.rooms id).isSome) : StillSaved id rev state w' := by
  obtain ⟨r, hr, hp, hrev, hst⟩ := h
  obtain ⟨r', hr'⟩ := Option.isSome_iff_exists.1 hl
  obtain ⟨-, es, -, hstep⟩ := hs.turn hk hm
  rw [hr, hr'] at hstep
  obtain ⟨hpers, hsaved⟩ := hstep.saved
  refine ⟨r', hr', hpers hp, ?_⟩
  rcases hsaved with ⟨he, hs'⟩ | hlt
  · have he : r'.revision = r.revision := he
    have hs' : r'.state = r.state := hs'
    rw [he, hs']
    exact ⟨hrev, hst⟩
  · have hlt : r.revision < r'.revision := hlt
    exact ⟨by omega, fun he => absurd he (by omega)⟩

/-- What a download keeps: what it received is the beginning of the state. -/
structure Download.Kept (config : Config) (id : String) (rev : Nat) (state : Bytes) (got : List Bytes) (w : World) : Prop where
  base : w.Base config
  sound : Sound id w
  holds : StillSaved id rev state w
  received : got.flatten = state.take got.flatten.length
  nonempty : got.length ≤ got.flatten.length

theorem Download.kept {config : Config} {id p : String} {rev : Nat} {state : Bytes} {w₀ w : World} {got : List Bytes}
    (hpay : 21 < config.maxPayloadBytes) (hbuf : 31 < config.maxBufferedBytes) (hb : w₀.Base config) (hs : Sound id w₀)
    (hh : StillSaved id rev state w₀) (h : Download id p rev state.length w₀ got w) : Kept config id rev state got w := by
  induction h with
  | start => exact ⟨hb, hs, hh, rfl, Nat.le_refl _⟩
  | act h hm hl ih =>
    exact ⟨hm.base ih.base, (ih.sound.turn ih.base.keyed hm).1, ih.holds.move ih.base.keyed ih.sound hm hl, ih.received,
      ih.nonempty⟩
  | chunk h hlt ha hhandle hans ih =>
    rename_i got t u env cid v b
    obtain ⟨r, hr, hp, hrev, hst⟩ := ih.holds
    have hc : t.config = config := ih.base.config
    obtain ⟨u', hu', hanswer⟩ := ha.answered env hr hp (hc ▸ hpay) (hc ▸ hbuf)
    rw [hhandle] at hu'
    obtain rfl : u = u' := by cases hu'; rfl
    split at hanswer
    · exact absurd hans (hanswer.2 b)
    · rename_i hfresh
      rw [not_or, not_not] at hfresh
      obtain ⟨b', hb', hlen, -, hbytes⟩ := hanswer
      obtain rfl : b = b' := by
        have he := hans.symm.trans hb'
        simpa using he
      rw [hst hfresh.1.symm] at hbytes
      obtain ⟨txt, hv⟩ := ha.valid
      have hm : Move (.text p v) t.world u.world := by
        have hmove := handle_move env t cid p v ih.base.keyed (by rw [ha.speaks.2]; rfl) hv.valid
        rw [hhandle] at hmove
        exact hmove
      have hl : (u.world.rooms id).isSome := by
        obtain ⟨bid, -, hh'⟩ := ha.handle env hr hp
        rw [hhandle] at hh'
        cases hh'
        show (IndexMap.get (IndexMap.insert _ id r) id).isSome
        rw [IndexMap.get_insert_self]
        rfl
      have hflat : (got ++ [b.drop 21]).flatten = state.take (got.flatten.length + (b.length - 21)) := by
        rw [List.flatten_append, List.flatten_singleton, ← hbytes, ← ih.received]
      have hsize : (got ++ [b.drop 21]).flatten.length = got.flatten.length + (b.length - 21) := by
        rw [List.flatten_append, List.flatten_singleton, List.length_append, List.length_drop]
      refine ⟨hm.base ih.base, (ih.sound.turn ih.base.keyed hm).1, ih.holds.move ih.base.keyed ih.sound hm hl, ?_, ?_⟩
      · rw [hsize]
        exact hflat
      · rw [hsize, List.length_append, List.length_singleton]
        have := ih.nonempty
        omega

end Server
end Relay
