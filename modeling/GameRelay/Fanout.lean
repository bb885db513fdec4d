import GameRelay.Binding
/-!
# Fanout — who is handed a room's messages

A frame handed to `raw` for each of a list of accounts reaches the current connection of each, once.  The three paths of
a room (`broadcastFrame`, `relayBytes`, `send` to the owner) are such lists of the room's active members, filtered; `Relays`
says which members each method means.
-/
namespace Relay

variable [Extern]

namespace Server

omit [Extern] in
/-- The current connection of an account, while it is there. -/
def current (s : Server) (id : String) : Option Nat := (s.connectionOf id).filter s.connections.contains

/-- The frame once for each of the accounts. -/
def deliveries (s : Server) (msg : Message) (ids : List String) : List (Nat × Message) :=
  (ids.filterMap s.current).map (fun cid => (cid, msg))

omit [Extern] in
theorem Sent.contains {s t : Server} (h : Sent s t) (cid : Nat) : t.connections.contains cid = s.connections.contains cid := by
  rcases h.2 cid with ⟨hs, ht⟩ | ⟨a, b, hs, ht, -⟩
  · rw [IndexMap.contains_eq_false.2 (Option.map_eq_none_iff.1 hs), IndexMap.contains_eq_false.2 (Option.map_eq_none_iff.1 ht)]
  · obtain ⟨c, hc, -⟩ := Option.map_eq_some_iff.1 hs
    obtain ⟨c', hc', -⟩ := Option.map_eq_some_iff.1 ht
    rw [IndexMap.contains_iff.2 ⟨c, hc⟩, IndexMap.contains_iff.2 ⟨c', hc'⟩]

/-- A frame for each account of a list that is wanted. -/
theorem foldl_offered {s : Server} {msg : Message} {wants : String → Bool} {f : Server → String → Server} :
    ∀ (ids : List String) (u : Server), (∀ u, ∀ id ∈ ids, Sent s u → f u id =
        if wants id then (match s.connectionOf id with | some c => u.raw c msg | none => u) else u) → Sent s u →
      (ids.foldl f u).offered = u.offered ++ s.deliveries msg (ids.filter wants)
  | [], u, _, _ => (List.append_nil _).symm
  | id :: ids, u, hf, hu => by
    have hhead := hf u id List.mem_cons_self hu
    have hstep : Sent s (f u id) := by
      rw [hhead]
      split
      · split
        · exact hu.trans (sent_raw u _ msg)
        · exact hu
      · exact hu
    rw [List.foldl_cons, foldl_offered ids _ (fun u x hx => hf u x (List.mem_cons_of_mem _ hx)) hstep, hhead]
    by_cases hw : wants id = true
    · rw [if_pos hw, List.filter_cons_of_pos hw]
      cases hc : s.connectionOf id with
      | none =>
        have hnone : s.current id = none := by unfold current; rw [hc]; rfl
        unfold deliveries
        rw [List.filterMap_cons_none hnone]
      | some c =>
        dsimp only
        rw [raw_offered, hu.contains c]
        by_cases hin : s.connections.contains c = true
        · have hsome : s.current id = some c := by unfold current; rw [hc, Option.filter_some, if_pos hin]
          unfold deliveries
          rw [if_pos hin, List.filterMap_cons_some hsome, List.map_cons, List.append_assoc]
          rfl
        · have hnone : s.current id = none := by unfold current; rw [hc, Option.filter_some, if_neg hin]
          unfold deliveries
          rw [if_neg hin, List.filterMap_cons_none hnone]
    · rw [if_neg hw, List.filter_cons_of_neg hw]

/-- The account says it is in the room. -/
def SitsIn (s : Server) (id room : String) : Prop := (s.players.get id).bind (·.room) = some room

omit [Extern] in
theorem memberConnection_of {s u : Server} {id room : String} (hu : u.players = s.players) (h : s.SitsIn id room) :
    u.memberConnection room id = s.connectionOf id := by
  obtain ⟨a, ha, hroom⟩ := Option.bind_eq_some_iff.1 h
  unfold memberConnection connectionOf
  rw [hu, ha, Option.filter_some, if_pos (decide_eq_true hroom)]

theorem broadcastFrame_offered {s : Server} {r : Room} (h : ∀ id ∈ r.active, s.SitsIn id r.id) (msg : Message)
    (except : Option String) (targets : Option Value) : (s.broadcastFrame r msg except targets).offered =
      s.offered ++ s.deliveries msg (r.active.items.filter (wanted except targets)) := by
  refine foldl_offered _ s (fun u id hid hu => ?_) (.refl s)
  exact congrArg (fun o : Option Nat => if wanted except targets id then
    (match o with | some c => u.raw c msg | none => u) else u) (memberConnection_of (congrArg Core.players hu.1) (h id hid))

theorem relayBytes_offered {s : Server} {b : Bytes} (h : s.config.fits b.length = true) (r : Room) (p : String)
    (addressed : String → Bool) : (s.relayBytes r p addressed b).offered =
      s.offered ++ s.deliveries (.binary b) (r.active.items.filter (fun id => decide (id ≠ p) && addressed id)) := by
  unfold relayBytes
  refine foldl_offered _ s (fun u id _ hu => ?_) (.refl s)
  have hfit : u.config.fits b.length = true := by rw [congrArg Core.config hu.1]; exact h
  have hconn : u.connectionOf id = s.connectionOf id := by unfold connectionOf; rw [congrArg Core.players hu.1]
  unfold bytes
  cases hc : s.connectionOf id with
  | none => simp only [hfit, hconn.trans hc]
  | some c => simp only [hfit, hconn.trans hc]

theorem send_offered {s : Server} {v : Value} {msg : Message} (h : s.encoded v = some msg) (id : String) :
    (s.send id v).offered = s.offered ++ s.deliveries msg [id] := by
  unfold send sendC deliveries
  rw [h]
  cases hc : s.connectionOf id with
  | none =>
    have hnone : s.current id = none := by unfold current; rw [hc]; rfl
    rw [List.filterMap_cons_none hnone]
    exact (List.append_nil _).symm
  | some c =>
    dsimp only [Option.some_or]
    rw [raw_offered]
    by_cases hin : s.connections.contains c = true
    · have hsome : s.current id = some c := by unfold current; rw [hc, Option.filter_some, if_pos hin]
      rw [if_pos hin, List.filterMap_cons_some hsome]
      rfl
    · have hnone : s.current id = none := by unfold current; rw [hc, Option.filter_some, if_neg hin]
      rw [if_neg hin, List.filterMap_cons_none hnone]
      exact (List.append_nil _).symm

omit [Extern] in
theorem nodup_filter (r : Room) (f : String → Bool) : (r.active.items.filter f).Nodup := r.active.nodup.filter f

/-! What each method means. -/

/-- The methods that pass a message on in the sender's room. -/
def relayed : List String :=
  ["sendChatMsg", "sendToRoom", "sendTo", "shareGameState", "requestGameState", "setRoomMeta", "startGame"]

/-- What the room is told. -/
def payload (s : Server) (p m : String) (d : Value) : Value :=
  match m with
  | "sendChatMsg" => chatMsg p d
  | "sendToRoom" => messageFromPlayer p d
  | "sendTo" => messageFromPlayer p (d.idx "msg")
  | "shareGameState" => newGameState d
  | "requestGameState" => ((s.players.get p).map gameStateRequested).getD .null
  | "setRoomMeta" => onSetRoomMeta d
  | _ => gameStarted d

/-- The accounts a message lists in `to`. -/
def Listed (d : Value) (id : String) : Prop := ∃ l, d.idx "to" = .arr l ∧ Value.str id ∈ l

/-- The members a message is meant for. -/
def Intended (r : Room) (p m : String) (d : Value) (id : String) : Prop :=
  id ∈ r.active ∧
    match m with
    | "sendToRoom" => id ≠ p
    | "sendTo" => Listed d id
    | "shareGameState" => if (d.get "to").isSome then Listed d id else id ≠ p
    | "requestGameState" => id = r.owner
    | _ => True

/-- The message is accepted: the methods of the owner come from the owner, a game starts once, the metadata leaves the
room's listing within its budget, and the payload fits. -/
structure Accepted (s : Server) (p : String) (r : Room) (m : String) (d : Value) : Prop where
  owner : m ∈ ["shareGameState", "setRoomMeta", "startGame"] → r.owner = p
  started : m = "startGame" → r.started = false
  fits : m = "setRoomMeta" → s.roomFits { r with metadata := d } = true
  encoded : s.encoded (s.payload p m d) = some (.text (s.payload p m d))

/-- A routed binary frame: the version, an address that is nil or an RFC 4122 UUID, and at least one byte. -/
structure Routed (b address payload : Bytes) : Prop where
  length : address.length = 16
  nonempty : payload ≠ []
  eq : b = 1 :: (address ++ payload)
  valid : address = List.replicate 16 0 ∨
    (1 ≤ (address[6]?.getD 0).toNat / 16 ∧ (address[6]?.getD 0).toNat / 16 ≤ 8) ∧ (address[8]?.getD 0).toNat / 64 = 2

/-- From `s` to `t` the frame was handed once to the current connection of each account meant; all else that was handed
over are notices. -/
def Fans (s t : Server) (msg : Message) (meant : String → Prop) (notice : Message → Prop) : Prop :=
  ∃ ids rest, ids.Nodup ∧ (∀ id, id ∈ ids ↔ meant id) ∧ t.offered = s.offered ++ (s.deliveries msg ids ++ rest) ∧
    ∀ x ∈ rest, notice x.2

/-- Room and accounts agree on who is in the room. -/
def Agrees (s : Server) (r : Room) : Prop := ∀ id, id ∈ r.active ↔ s.SitsIn id r.id

omit [Extern] in
theorem routedHeader_iff {b : Bytes} : routedHeader b = true ↔ ∃ address payload, Routed b address payload := by
  unfold routedHeader
  simp only [Bool.and_eq_true, Bool.or_eq_true, decide_eq_true_eq]
  constructor
  · rintro ⟨⟨hlen, hhead⟩, hvalid⟩
    obtain ⟨x, rest, rfl⟩ : ∃ x rest, b = x :: rest := by
      cases b with
      | nil => cases hhead
      | cons x rest => exact ⟨x, rest, rfl⟩
    cases Option.some.inj hhead
    rw [List.length_cons] at hlen
    refine ⟨rest.take 16, rest.drop 16, by rw [List.length_take]; omega, ?_, by rw [List.take_append_drop], ?_⟩
    · rw [ne_eq, List.drop_eq_nil_iff]
      omega
    · rw [List.getElem?_take_of_lt (by omega), List.getElem?_take_of_lt (by omega)]
      exact hvalid.imp id id
  · rintro ⟨address, payload, hlen, hne, rfl, hvalid⟩
    have hpos : 0 < payload.length := List.length_pos_of_ne_nil hne
    have htake : ((1 :: (address ++ payload) : Bytes).drop 1).take 16 = address := by
      rw [List.drop_succ_cons, List.drop_zero, ← hlen, List.take_left]
    refine ⟨⟨by rw [List.length_cons, List.length_append]; omega, rfl⟩, ?_⟩
    rw [htake, List.getElem?_cons_succ, List.getElem?_cons_succ, List.getElem?_append_left (by omega),
      List.getElem?_append_left (by omega)]
    exact hvalid.imp id id

omit [Extern] in
theorem fans_of_filter {s t : Server} {r : Room} {msg : Message} {f : String → Bool} {meant : String → Prop}
    {notice : Message → Prop} {rest : List (Nat × Message)}
    (h : t.offered = s.offered ++ (s.deliveries msg (r.active.items.filter f) ++ rest))
    (hf : ∀ id, id ∈ r.active ∧ f id = true ↔ meant id) (hrest : ∀ x ∈ rest, notice x.2) : s.Fans t msg meant notice :=
  ⟨_, rest, nodup_filter r f, fun id => by rw [List.mem_filter, IndexSet.mem_items]; exact hf id, h, hrest⟩

omit [Extern] in
theorem wanted_all (id : String) : wanted none none id = true := rfl

omit [Extern] in
theorem wanted_others {p id : String} : wanted (some p) none id = true ↔ id ≠ p := by
  simp only [wanted, Option.any_none, Bool.or_false, Bool.not_eq_true', decide_eq_false_iff_not, Option.some.injEq]
  exact ne_comm

omit [Extern] in
theorem wanted_listed {l : List Value} {id : String} : wanted none (some (.arr l)) id = true ↔ Value.str id ∈ l := by
  simp [wanted, Value.asArray]

theorem relay_fits {s : Server} {p : String} {v : Value} (h : s.encoded v = some (.text v)) :
    s.relay p v = (s, some (.text v)) := by
  unfold relay
  rw [h]

theorem relayTo_offered {s : Server} {p : String} {r : Room} {v : Value} (h : ∀ id ∈ r.active, s.SitsIn id r.id)
    (hv : s.encoded v = some (.text v)) (except : Option String) (targets : Option Value) :
    (s.relayTo p r v except targets).offered =
      s.offered ++ (s.deliveries (.text v) (r.active.items.filter (wanted except targets)) ++ []) := by
  unfold relayTo
  rw [relay_fits hv, List.append_nil]
  exact broadcastFrame_offered h _ except targets

omit [Extern] in
/-- A list of identifiers is an array. -/
theorem ids_array {d : Value} {k : String} {max : Nat} {unique : Bool} (h : Protocol.ids (d.idx k) max unique = true) :
    ∃ l, d.get k = some (.arr l) ∧ d.idx k = .arr l := by
  unfold Protocol.ids at h
  obtain ⟨l, hl, -⟩ := (Option.any_eq_true _ _).1 h
  have harr : d.idx k = .arr l := by
    unfold Value.asArray at hl
    split at hl
    · rename_i a heq
      cases hl
      exact heq
    · cases hl
  refine ⟨l, ?_, harr⟩
  unfold Value.idx at harr
  cases hg : d.get k with
  | none => rw [hg] at harr; cases harr
  | some x => rw [hg] at harr; exact congrArg some harr

/-- **A room method hands its payload to the members it is meant for.** -/
theorem roomMessage_fans (env : Env) {s : Server} {p m : String} {r : Room} {d v : Value} {roomMax accounts : Nat}
    (hagree : s.Agrees r) (hp : p ∈ r.active) (hm : m ∈ relayed) (hv : Protocol.validData v d roomMax accounts m = true)
    (ha : s.Accepted p r m d) : ∃ t r', s.roomMessage env p r m d = .ok (t, r') ∧
      s.Fans t (.text (s.payload p m d)) (Intended r p m d)
        (fun n => m = "startGame" ∧ n = .text (.obj [("method", .str "roomBlock"), ("data", .str r.id)])) := by
  have hsits : ∀ id ∈ r.active, s.SitsIn id r.id := fun id hid => (hagree id).1 hid
  have henc := ha.encoded
  simp only [relayed, List.mem_cons, List.not_mem_nil, or_false] at hm
  rcases hm with rfl | rfl | rfl | rfl | rfl | rfl | rfl
  · refine ⟨s.relayTo p r (chatMsg p d) none none, r, by simp [roomMessage, sendChatMsg], ?_⟩
    exact fans_of_filter (relayTo_offered hsits henc none none)
      (fun id => ⟨fun h => ⟨h.1, trivial⟩, fun h => ⟨h.1, wanted_all id⟩⟩) (fun x hx => absurd hx List.not_mem_nil)
  · refine ⟨s.relayTo p r (messageFromPlayer p d) (some p) none, r, by simp [roomMessage, sendToRoom], ?_⟩
    exact fans_of_filter (relayTo_offered hsits henc (some p) none)
      (fun id => and_congr_right' wanted_others) (fun x hx => absurd hx List.not_mem_nil)
  · obtain ⟨l, hget, hidx⟩ := ids_array (d := d) (k := "to") (by
      simp only [Protocol.validData, Bool.and_eq_true] at hv
      exact hv.1.2)
    refine ⟨s.relayTo p r (messageFromPlayer p (d.idx "msg")) none (d.get "to"), r, by simp [roomMessage, sendTo], ?_⟩
    rw [hget]
    refine fans_of_filter (relayTo_offered hsits henc none _) (fun id => and_congr_right' ?_) (fun x hx => absurd hx List.not_mem_nil)
    refine wanted_listed.trans ⟨fun h => ⟨l, hidx, h⟩, ?_⟩
    rintro ⟨l', hl', h⟩
    rw [hidx] at hl'
    cases hl'
    exact h
  · have hown := ha.owner (by decide)
    refine ⟨s.relayTo p r (newGameState d) (if (d.get "to").isSome then none else some p) (d.get "to"), r,
      by simp [roomMessage, shareGameState, ownerOnly, hown], ?_⟩
    refine fans_of_filter (relayTo_offered hsits henc _ _) (fun id => and_congr_right' ?_) (fun x hx => absurd hx List.not_mem_nil)
    cases hget : d.get "to" with
    | none =>
      simp only [Option.isSome_none, Bool.false_eq_true, if_false]
      exact wanted_others
    | some w =>
      have hids : Protocol.ids (d.idx "to") accounts true = true := by
        simp only [Protocol.validData, Bool.and_eq_true, Protocol.optional, hget, Option.all_some] at hv
        unfold Value.idx
        rw [hget]
        exact hv.2
      obtain ⟨l, hget', hidx⟩ := ids_array hids
      rw [hget] at hget'
      cases hget'
      simp only [Option.isSome_some, if_true]
      refine wanted_listed.trans ⟨fun h => ⟨l, hidx, h⟩, ?_⟩
      rintro ⟨l', hl', h⟩
      rw [hidx] at hl'
      cases hl'
      exact h
  · obtain ⟨a, hpl, -⟩ := Option.bind_eq_some_iff.1 (hsits p hp)
    have hpay : s.payload p "requestGameState" d = gameStateRequested a := by
      show ((s.players.get p).map gameStateRequested).getD .null = _
      rw [hpl]
      rfl
    have hrm : s.roomMessage env p r "requestGameState" d = s.requestGameState p r := by simp [roomMessage]
    by_cases hown : r.active.contains r.owner = true
    · refine ⟨s.send r.owner (gameStateRequested a), r, ?_, ?_⟩
      · rw [hrm, requestGameState, if_pos hown, hpl]
        rfl
      · rw [hpay] at henc ⊢
        refine ⟨[r.owner], [], List.nodup_singleton _, fun id => ?_, by rw [send_offered henc, List.append_nil],
          fun x hx => absurd hx List.not_mem_nil⟩
        rw [List.mem_singleton]
        exact ⟨fun h => ⟨h ▸ IndexSet.contains_iff.1 hown, h⟩, fun h => h.2⟩
    · refine ⟨s, r, by rw [hrm, requestGameState, if_neg hown], [], [], List.nodup_nil, fun id => ?_,
        (List.append_nil _).symm, fun x hx => absurd hx List.not_mem_nil⟩
      refine ⟨fun h => absurd h List.not_mem_nil, fun h => ?_⟩
      have h2 : id = r.owner := h.2
      exact absurd (IndexSet.contains_iff.2 (h2 ▸ h.1)) hown
  · have hown := ha.owner (by decide)
    have hrel : s.relay p (onSetRoomMeta d) = (s, some (.text (onSetRoomMeta d))) := relay_fits henc
    refine ⟨s.broadcastFrame { r with metadata := d } (.text (onSetRoomMeta d)) none none, { r with metadata := d }, ?_, ?_⟩
    · have hrm : s.roomMessage env p r "setRoomMeta" d = s.setRoomMeta p r d := by simp [roomMessage]
      rw [hrm, setRoomMeta, ownerOnly, if_neg (not_not_intro hown), if_neg (by rw [ha.fits rfl]; decide), hrel]
    · have hoff := broadcastFrame_offered (r := { r with metadata := d }) hsits (.text (onSetRoomMeta d)) none none
      rw [← List.append_nil (s.deliveries _ _)] at hoff
      exact fans_of_filter (r := r) hoff
        (fun id => ⟨fun h => ⟨h.1, trivial⟩, fun h => ⟨h.1, wanted_all id⟩⟩) (fun x hx => absurd hx List.not_mem_nil)
  · have hown := ha.owner (by decide)
    have hrel : s.relay p (gameStarted d) = (s, some (.text (gameStarted d))) := relay_fits henc
    have hst := ha.started rfl
    generalize hr' : startedRoom s.store.enabled r d env.now = r'
    have hact : r'.active = r.active ∧ r'.id = r.id := by rw [← hr']; exact ⟨rfl, rfl⟩
    generalize hu : s.record (if r'.persistent then [.started r'.id] else []) = u
    have hb : (u.broadcastFrame r' (.text (gameStarted d)) none none).offered =
        s.offered ++ s.deliveries (.text (gameStarted d)) (r.active.items.filter (wanted none none)) := by
      rw [← hact.1, ← hu]
      exact broadcastFrame_offered (r := r') (fun id hid => by
        rw [hact.2]; exact hsits id (by rw [← hact.1]; exact hid)) _ none none
    obtain ⟨rest, hrest, hall⟩ := (emits_lobby (k := false) (P := fun n => n = .text (.obj [("method", .str "roomBlock"),
      ("data", .str r.id)])) (u.broadcastFrame r' (.text (gameStarted d)) none none) rfl).offered
    refine ⟨(u.broadcastFrame r' (.text (gameStarted d)) none none).lobby (.obj [("method", .str "roomBlock"),
      ("data", .str r.id)]), r', ?_, ?_⟩
    · have hrm : s.roomMessage env p r "startGame" d = s.startGame env p r d := by simp [roomMessage]
      rw [hrm, startGame, ownerOnly, if_neg (not_not_intro hown), if_neg (by rw [hst]; decide), hrel]
      dsimp only
      rw [hr', hu, hact.2]
    · rw [hb, List.append_assoc] at hrest
      exact fans_of_filter (r := r) hrest
        (fun id => ⟨fun h => ⟨h.1, trivial⟩, fun h => ⟨h.1, wanted_all id⟩⟩) (fun x hx => ⟨rfl, hall x hx⟩)

/-! The current connections of a room's members are apart. -/

/-- No two accounts have one current connection. -/
def Unshared (s : Server) : Prop := ∀ id id' cid, s.current id = some cid → s.current id' = some cid → id = id'

omit [Extern] in
theorem unshared_of_linked {s : Server} (h : s.world.Linked) : s.Unshared := by
  have bound : ∀ {id cid}, s.current id = some cid → ∃ l, s.world.links cid = some l ∧ l.player = some id := by
    intro id cid hc
    obtain ⟨hc, -⟩ := Option.filter_eq_some_iff.1 hc
    obtain ⟨a, ha, hac⟩ := Option.bind_eq_some_iff.1 hc
    exact h id a.seat cid (Option.map_eq_some_iff.2 ⟨a, ha, rfl⟩) hac
  intro id id' cid hid hid'
  obtain ⟨l, hl, hp⟩ := bound hid
  obtain ⟨l', hl', hp'⟩ := bound hid'
  rw [hl] at hl'
  cases hl'
  exact Option.some.inj (hp.symm.trans hp')

omit [Extern] in
/-- **Each connection of a member meant is handed the frame exactly once, and no other connection is.** -/
theorem Fans.count {s t : Server} {msg : Message} {meant : String → Prop} {notice : Message → Prop}
    (h : s.Fans t msg meant notice) (hs : s.Unshared) (hn : ¬ notice msg) : ∃ new, t.offered = s.offered ++ new ∧
      (∀ id cid, meant id → s.current id = some cid → new.count (cid, msg) = 1) ∧
      ∀ cid, (∀ id, meant id → s.current id ≠ some cid) → new.count (cid, msg) = 0 := by
  obtain ⟨ids, rest, hnd, hids, hoff, hrest⟩ := h
  have hzero : ∀ cid, rest.count (cid, msg) = 0 := fun cid =>
    List.count_eq_zero.2 (fun hm => hn (hrest _ hm))
  have hnodup : (s.deliveries msg ids).Nodup := by
    refine (hnd.filterMap (fun id id' cid hid hid' => ?_)).map (fun a b hab => (Prod.mk.inj hab).1)
    exact hs id id' cid hid hid'
  refine ⟨_, hoff, fun id cid hid hc => ?_, fun cid hno => ?_⟩
  · rw [List.count_append, hzero, Nat.add_zero]
    refine List.count_eq_one_of_mem hnodup (List.mem_map.2 ⟨cid, List.mem_filterMap.2 ⟨id, (hids id).2 hid, hc⟩, rfl⟩)
  · rw [List.count_append, hzero, Nat.add_zero]
    refine List.count_eq_zero.2 (fun hm => ?_)
    obtain ⟨c, hc, he⟩ := List.mem_map.1 hm
    cases he
    obtain ⟨id, hid, hcur⟩ := List.mem_filterMap.1 hc
    exact hno id ((hids id).1 hid) hcur

/-! The room of the sender. -/

theorem handle_relayed {m : String} {v : Value} (hm : m ∈ relayed) (hname : (v.idx "method").asStr = some m) (env : Env)
    (s : Server) (cid : Nat) (p : String) : s.handle env cid p v = s.inRoom env p m (v.idx "data") := by
  unfold handle
  rw [hname]
  simp only [relayed, List.mem_cons, List.not_mem_nil, or_false] at hm
  rcases hm with rfl | rfl | rfl | rfl | rfl | rfl | rfl
  all_goals simp [Out.unwrap]

section Sender

variable {s : Server} {r : Room} {p : String} (hlive : s.rooms.get r.id = some r) (hagree : s.Agrees r) (hp : p ∈ r.active)

include hlive hagree hp

/-- **A message in a room.** -/
theorem handle_fans (env : Env) (cid : Nat) {v : Value} {m : String} {roomMax accounts : Nat} (hm : m ∈ relayed)
    (hname : (v.idx "method").asStr = some m) (hv : Protocol.validate v roomMax accounts = true)
    (ha : s.Accepted p r m (v.idx "data")) : ∃ t, s.handle env cid p v = .ok t ∧
      s.Fans t (.text (s.payload p m (v.idx "data"))) (Intended r p m (v.idx "data"))
        (fun n => m = "startGame" ∧ n = .text (.obj [("method", .str "roomBlock"), ("data", .str r.id)])) := by
  obtain ⟨a, hpl, hroom⟩ := Option.bind_eq_some_iff.1 ((hagree p).1 hp)
  obtain ⟨t, r', hrm, ids, rest, hfans⟩ := roomMessage_fans env (s := s.takeRoom r.id) (d := v.idx "data") hagree hp hm
    (Protocol.validate_data hv hname) ⟨ha.owner, ha.started, ha.fits, ha.encoded⟩
  refine ⟨t.setRoom r.id r', ?_, ids, rest, hfans⟩
  rw [handle_relayed hm hname, inRoom, hpl]
  dsimp only [Out.unwrap]
  rw [hroom]
  dsimp only
  rw [hlive]
  dsimp only
  rw [hrm]
  rfl

/-- The room a binary frame goes to. -/
theorem binary_room (env : Env) (b : Bytes) (hup : ¬ (r.persistent = true ∧ b.head? = some 2)) : s.binary env p b =
    if !r.binary then .ok (s.relayBytes r p (fun _ => true) b)
    else if routedHeader b = false then .ok (s.err p "invalid_message")
    else Out.unwrap (parseUuid p) fun sender => .ok (s.relayBytes r p (fun id =>
      decide ((b.drop 1).take 16 = List.replicate 16 0) || decide (uuidText ((b.drop 1).take 16) = id))
        (b.take 1 ++ sender ++ b.drop 17)) := by
  obtain ⟨a, hpl, hroom⟩ := Option.bind_eq_some_iff.1 ((hagree p).1 hp)
  rw [binary, hpl]
  dsimp only [Out.unwrap]
  rw [hroom]
  dsimp only
  rw [hlive]
  dsimp only
  rw [if_neg (by simpa using hup)]

omit [Extern] hlive hagree hp in
theorem take_address {address : Bytes} (payload : Bytes) (h : address.length = 16) :
    ((1 :: (address ++ payload) : Bytes).drop 1).take 16 = address ∧ (1 :: (address ++ payload) : Bytes).drop 17 = payload := by
  rw [List.drop_succ_cons, List.drop_succ_cons, List.drop_zero, ← h, List.take_left, List.drop_left]
  exact ⟨rfl, rfl⟩

end Sender

/-- An error goes to the current connection of its account only. -/
theorem err_offered (s : Server) (p code : String) : ∃ rest, (s.err p code).offered = s.offered ++ rest ∧
    ∀ x ∈ rest, s.current p = some x.1 ∧ ∃ code', x.2 = .text (errorData code') := by
  have nothing : ∃ rest, s.offered = s.offered ++ rest ∧
      ∀ x ∈ rest, s.current p = some x.1 ∧ ∃ code', x.2 = .text (errorData code') :=
    ⟨[], (List.append_nil _).symm, fun x hx => absurd hx List.not_mem_nil⟩
  unfold err send
  cases hc : s.connectionOf p with
  | none => exact nothing
  | some c =>
    dsimp only
    unfold sendC
    split
    · rename_i msg hm
      rw [raw_offered]
      by_cases hin : s.connections.contains c = true
      · refine ⟨[(c, msg)], if_pos hin, fun x hx => ?_⟩
        rw [List.mem_singleton.1 hx]
        refine ⟨by unfold current; rw [hc, Option.filter_some, if_pos hin], ?_⟩
        rcases Option.or_eq_some_iff.1 hm with h | ⟨-, h⟩
        · exact ⟨code, encoded_some h⟩
        · exact ⟨_, encoded_some h⟩
      · rw [if_neg hin]
        exact nothing
    · exact nothing

end Server

namespace Trace

open Server

def arena : Room := { Room.new room "Arena" account 4 .null .null 0 with active := IndexSet.empty.insert account }

def speaker : Player := { Player.new account "secret" "Player" 0 with connection := some 1, room := some room }

def greeting : Value := .obj [("method", .str "sendChatMsg"), ("data", .str "hello")]

end Trace

namespace Server

/-- One account alone in a room. -/
def alone : Server :=
  { boot .default .empty false with
    players := IndexMap.empty.insert Trace.account Trace.speaker
    rooms := IndexMap.empty.insert Trace.room Trace.arena
    connections := IndexMap.empty.insert 1 {
      udp := none, udpIncomingRate := ⟨0, 0⟩, udpOutgoingRate := ⟨0, 0⟩, out := [], receiver := true, queued := 0
      player := some Trace.account, created := 0, activity := 0, ping := none, lastPing := 0, rateAt := 0
      messages := 0, delayed := 0, pending := 0, closing := false, abort := false } }

omit [Extern] in
theorem alone_agrees : alone.Agrees Trace.arena := fun id => by
  by_cases hid : id = Trace.account
  · subst hid
    exact ⟨fun _ => rfl, fun _ => by decide +kernel⟩
  · have hin : ¬ id ∈ Trace.arena.active := by
      show ¬ id ∈ IndexSet.empty.insert Trace.account
      rw [IndexSet.mem_insert]
      exact fun h => h.elim hid IndexSet.mem_empty
    have hout : alone.players.get id = none := by
      show (IndexMap.empty.insert Trace.account Trace.speaker).get id = none
      rw [IndexMap.get_insert_ne _ _ hid]
      rfl
    refine ⟨fun h => absurd h hin, fun h => ?_⟩
    unfold SitsIn at h
    rw [hout] at h
    cases h

end Server
end Relay
