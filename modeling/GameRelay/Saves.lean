import GameRelay.Downloads
import GameRelay.JobFiles
import GameRelay.Uploads
/-!
# Saves — an undisturbed save goes through

A save is a `beginSession`, chunks at consecutive offsets and a `commitSession`, with any acts of anyone in between that
leave the pending upload alone (`Saving`).  However the state is split, every chunk in order is taken, and the commit makes
exactly the bytes sent the room's next revision.
-/
namespace Relay

variable [Extern]

namespace Server

/-- The room's pending upload is the request `req` of `p` for `size` bytes, of which it received these. -/
structure Uploading (id p req : String) (size : Nat) (sent : Bytes) (r : Room) (u : Upload) : Prop where
  upload : r.upload = some u
  request : u.id = req
  owner : u.owner = p
  size : u.bytes.length = size
  offset : u.offset = sent.length
  received : u.bytes.take u.offset = sent

/-- The chunk of an upload at this offset; `bid` is the request in bytes. -/
def chunkOf (bid : Bytes) (off : Nat) (payload : Bytes) : Bytes := 2 :: (bid ++ u32Bytes off ++ payload)

/-- The account hosts the saved room and begins to save a state of `size` bytes over this revision. -/
structure Begins (t : Server) (cid : Nat) (p id req : String) (size : Nat) (v : Value) (r : Room) : Prop
    extends t.Requests cid p id "beginSession" v where
  room : t.rooms.get id = some r
  persistent : r.persistent = true
  host : r.owner = p
  request : (v.idx "data").idx "requestId" = .str req
  revision : (v.idx "data").idx "revision" = .ofNat r.revision
  generation : (v.idx "data").idx "generation" = .ofNat r.generation
  declared : (v.idx "data").idx "size" = .ofNat size

/-- The account is in the room. -/
def Sits (t : Server) (p id : String) : Prop := ∃ a, t.players.get p = some a ∧ a.room = some id

/-- The account offers its complete upload for a commit that notifies members only. -/
structure Offers (t : Server) (cid : Nat) (p id req : String) (v : Value) (r : Room) : Prop
    extends t.Requests cid p id "commitSession" v where
  room : t.rooms.get id = some r
  request : (v.idx "data").idx "requestId" = .str req
  scheduled : noticeOutsider r ((v.idx "data").idx "scheduled") = some false
  immediate : noticeOutsider r ((v.idx "data").idx "immediate") = some false

/-- The server answers how far the upload got, and holds it. -/
def Acknowledges (u : Server) (id p req : String) (off : Nat) : Prop :=
  ∃ (s : Server) (r : Room), u = putBack id (s.reply p (.str req) (.obj [("offset", .ofNat off)]), r)

/-- **A save under way**: the chunks received in order, and any acts between them that leave the upload alone. -/
inductive Saving (id p : String) (bid : Bytes) (size : Nat) (w₀ : World) : Bytes → World → Prop
  | begun : Saving id p bid size w₀ [] w₀
  | act {sent : Bytes} {w w' : World} {a : Act} (h : Saving id p bid size w₀ sent w) (hm : Move a w w')
      (hu : (w'.rooms id).bind Room.upload = (w.rooms id).bind Room.upload) : Saving id p bid size w₀ sent w'
  | chunk {sent payload : Bytes} {t u : Server} {env : Env} (h : Saving id p bid size w₀ sent t.world)
      (hsits : t.Sits p id) (hne : payload ≠ []) (hfit : sent.length + payload.length ≤ size)
      (hb : t.binary env p (chunkOf bid sent.length payload) = .ok u) : Saving id p bid size w₀ (sent ++ payload) u.world

omit [Extern] in
theorem bigEndian_u32Bytes {n : Nat} (h : n < 2 ^ 32) : bigEndian (u32Bytes n) = n := by
  unfold bigEndian u32Bytes
  simp only [List.foldl_cons, List.foldl_nil, UInt8.toNat_ofNat']
  omega

omit [Extern] in
/-- The parts of a chunk. -/
theorem chunkOf_parts {bid : Bytes} (hbid : bid.length = 16) (off : Nat) (payload : Bytes) :
    (chunkOf bid off payload).length = 21 + payload.length ∧ ((chunkOf bid off payload).drop 1).take 16 = bid ∧
      ((chunkOf bid off payload).drop 17).take 4 = u32Bytes off ∧ (chunkOf bid off payload).drop 21 = payload := by
  have hhead : (bid ++ u32Bytes off).length = 20 := by
    rw [List.length_append, hbid, length_u32Bytes]
  unfold chunkOf
  refine ⟨?_, ?_, ?_, ?_⟩
  · rw [List.length_cons, List.length_append, hhead]
    omega
  · rw [List.drop_succ_cons, List.drop_zero, List.append_assoc, List.take_left' hbid]
  · rw [List.drop_succ_cons, List.append_assoc, List.drop_left' hbid, List.take_left' (length_u32Bytes off)]
  · rw [List.drop_succ_cons, List.drop_left' hhead]

/-- **A save that is begun** over the current revision is acknowledged. -/
theorem Begins.handle {t : Server} {cid : Nat} {p id req : String} {size : Nat} {v : Value} {r : Room}
    (h : t.Begins cid p id req size v r) (hsize : size ≤ t.config.maxSessionBytes) (env : Env) :
    ∃ u, t.handle env cid p v = .ok u ∧ u.Acknowledges id p req 0 ∧
      ∃ r' x, u.rooms.get id = some r' ∧ r'.revision = r.revision ∧ Uploading id p req size [] r' x := by
  obtain ⟨txt, hv⟩ := h.valid
  obtain ⟨a, ha, hroom⟩ := h.sits
  have hhandle : t.handle env cid p v =
      mapOut (putBack id) ((t.takeRoom id).session env p r "beginSession" (v.idx "data")) := by
    unfold Server.handle
    rw [hv.method]
    simp [Out.unwrap, inRoom, ha, hroom, h.room, roomMessage]
  rw [hhandle]
  unfold session beginSession
  rw [h.persistent, h.request, h.revision, h.generation, h.declared]
  simp only [Bool.not_true, Bool.false_eq_true, if_false, if_neg (by decide : ¬ "beginSession" = "getSession"),
    if_neg (by decide : ¬ "beginSession" = "getSessionChunk"), h.host, ne_eq, not_true_eq_false, or_self, Out.unwrap,
    show (Value.ofNat size).asU64 = some size from rfl, if_true, Value.asStr]
  rw [if_neg (by show ¬ (t.takeRoom id).config.maxSessionBytes < size; exact Nat.not_lt_of_le hsize)]
  refine ⟨_, rfl, ⟨_, _, rfl⟩, _, _, IndexMap.get_insert_self .., rfl, ⟨rfl, rfl, rfl, List.length_replicate, rfl, rfl⟩⟩

/-- **A chunk in order is taken**, and its end is acknowledged. -/
theorem Uploading.chunk {t : Server} {p id req : String} {size : Nat} {sent payload bid : Bytes} {r : Room} {x : Upload}
    (h : Uploading id p req size sent r x) (hr : t.rooms.get id = some r) {past : List Event} (hinv : Session.Inv id (some r.session) past)
    (hp : r.persistent = true) (hbid : parseUuid req = some bid) (hsits : t.Sits p id) (hne : payload ≠ [])
    (hfit : sent.length + payload.length ≤ size) (hsize : size < 2 ^ 32) (env : Env) :
    ∃ u, t.binary env p (chunkOf bid sent.length payload) = .ok u ∧
      u.Acknowledges id p req (sent.length + payload.length) ∧
      ∃ r' x', u.rooms.get id = some r' ∧ r'.revision = r.revision ∧ Uploading id p req size (sent ++ payload) r' x' := by
  obtain ⟨a, ha, hroom⟩ := hsits
  obtain ⟨hlen, hid, hoff, hpay⟩ := chunkOf_parts (length_parseUuid hbid) sent.length payload
  obtain ⟨howner, hgen, -, -⟩ := hinv.upload r.session x rfl h.upload
  have hpos : 0 < payload.length := List.length_pos_iff.2 hne
  have hfresh : staleChunk r x bid p (chunkOf bid sent.length payload) = false := by
    unfold staleChunk
    rw [hid, hoff, hlen, bigEndian_u32Bytes (by omega), h.owner, h.offset, h.size,
      show r.owner = p from howner.symm.trans h.owner, show x.generation = r.generation from hgen]
    simp
    omega
  unfold Server.binary
  rw [ha]
  dsimp only [Out.unwrap]
  rw [hroom]
  dsimp only
  rw [hr]
  dsimp only
  rw [if_pos (by rw [hp]; rfl)]
  unfold Server.upload
  rw [if_neg (by rw [hlen]; omega), h.upload]
  dsimp only
  rw [h.request, hbid]
  dsimp only [Out.unwrap]
  rw [hfresh, if_neg (by simp)]
  have hroom' : x.offset + payload.length ≤ x.bytes.length := by
    rw [h.offset, h.size]
    exact hfit
  obtain ⟨hwlen, hwtake⟩ := Upload.write_spec env.now hroom'
  rw [hpay, show (x.write payload env.now).offset = x.offset + payload.length from rfl, h.offset,
    show (x.write payload env.now).id = req from h.request]
  refine ⟨_, rfl, ⟨(t.takeRoom id).record [.uploaded r.id p payload], { r with upload := some (x.write payload env.now) }, rfl⟩,
    _, _, IndexMap.get_insert_self .., rfl, ⟨rfl, h.request, h.owner, hwlen.trans h.size, ?_, hwtake.trans ?_⟩⟩
  · show x.offset + payload.length = _
    rw [h.offset, List.length_append]
  · rw [h.received]


/-- **An upload is what its chunks said**, all the way, and its room stays at the revision it was begun over. -/
theorem Saving.kept {config : Config} {id p req : String} {bid sent : Bytes} {size revision : Nat} {w₀ w : World}
    (hsize : size < 2 ^ 32) (hbid : parseUuid req = some bid) (hb : w₀.Base config) (hs : Sound id w₀)
    (h₀ : ∃ r x, w₀.rooms id = some r ∧ r.revision = revision ∧ Uploading id p req size [] r x)
    (h : Saving id p bid size w₀ sent w) : w.Base config ∧ Sound id w ∧
      ∃ r x, w.rooms id = some r ∧ r.revision = revision ∧ Uploading id p req size sent r x := by
  induction h with
  | begun => exact ⟨hb, hs, h₀⟩
  | act h hm hu ih =>
    rename_i sent w w' a
    obtain ⟨hbw, hsw, r, x, hr, hrev, hup⟩ := ih
    have hs' := (hsw.turn hbw.keyed hm).1
    rw [hr, Option.bind_some, hup.upload] at hu
    obtain ⟨r', hr', hup'⟩ := Option.bind_eq_some_iff.1 hu
    -- the room of a pending upload is at the upload's revision
    have hold := (hsw.sessions.upload r.session x (by rw [hr]; rfl) hup.upload).2.2.1
    have hnew := (hs'.sessions.upload r'.session x (by rw [hr']; rfl) hup').2.2.1
    have hsame : r'.revision = r.revision := hnew.symm.trans hold
    exact ⟨hm.base hbw, hs', r', x, hr', hsame.trans hrev, { hup with upload := hup' }⟩
  | chunk h hsits hne hfit hbin ih =>
    rename_i sent payload t u env
    obtain ⟨hbw, hsw, r, x, hr, hrev, hup⟩ := ih
    have hinv := hsw.sessions
    rw [hr] at hinv
    have hp := (hsw.shaped r hr).upload (by rw [hup.upload]; rfl)
    obtain ⟨u', hu', -, r', x', hr', hrev', hup'⟩ := hup.chunk hr hinv hp hbid hsits hne hfit hsize env
    rw [hbin] at hu'
    obtain rfl : u = u' := by cases hu'; rfl
    have hm : Move (.binary p (chunkOf bid sent.length payload)) t.world u.world := by
      have hmove := binary_move env t p (chunkOf bid sent.length payload)
      rw [hbin] at hmove
      exact hmove
    exact ⟨hm.base hbw, (hsw.turn hbw.keyed hm).1, r', x', hr', hrev'.trans hrev, hup'⟩

/-- **A complete upload is presented for its commit.** -/
theorem Uploading.presents {past : List Event} {id p req : String} {size : Nat} {sent : Bytes} {r : Room} {x : Upload}
    (h : Uploading id p req size sent r x) (hinv : Session.Inv id (some r.session) past) (hp : r.persistent = true)
    (hall : sent.length = size) {t : Server} {cid : Nat} {v : Value} (ho : t.Offers cid p id req v r) :
    Presents r p (v.idx "data") x := by
  obtain ⟨howner, hgen, hrev, -⟩ := hinv.upload r.session x rfl h.upload
  refine ⟨hp, howner.symm.trans h.owner, h.upload, ?_, ho.scheduled, ho.immediate⟩
  unfold committable
  rw [ho.request, h.request, h.owner, h.offset, h.size, hall, show x.generation = r.generation from hgen,
    show x.revision = r.revision from hrev]
  simp

end Server
end Relay
