import GameRelay.Net
/-!
# Emits — a method sends frame by frame

`Emits calm P s t`: from `s` to `t` one `raw` after another, each of a frame that `P` allows, between changes that show in
no outgoing queue (`Quiet`).  Every method is such a chain; those of an account's own messages are `Calm` too: they leave
the delay queue alone, and an account moves between rooms under a new membership version only.  `Message.Names p` is what
the frames of an account's own messages satisfy: where the relay names a sender, it names `p`; `Message.Plain` are the
frames that name none.
-/
namespace Relay

/-- The outgoing side of a connection. -/
structure Outbox where
  out : List Message
  receiver : Bool
  queued : Nat
  closing : Bool
  abort : Bool
  deriving DecidableEq

def Connection.outbox (c : Connection) : Outbox := ⟨c.out, c.receiver, c.queued, c.closing, c.abort⟩

/-- The account a text frame of the relay names as its sender. -/
def senderOf (v : Value) : Option Value :=
  if v.idx "method" = .str "chatMsg" ∨ v.idx "method" = .str "messageFromPlayer" then (v.idx "data").get "from" else none

/-- The frame names no sender but `p`; a binary frame is asked for its header where frames are routed. -/
def Message.Names (routed : Bool) (p : String) : Message → Prop
  | .text v => ∀ a, senderOf v = some a → a = .str p
  | .binary b => routed = true → b.head? = some 1 → parseUuid p = some ((b.drop 1).take 16)
  | _ => True

/-- The frame names no sender. -/
def Message.Plain (m : Message) : Prop := ∀ routed p, m.Names routed p

namespace Server

/-- No outgoing queue changed; connections may have gone. -/
structure Quiet (s t : Server) : Prop where
  config : t.config = s.config
  offered : t.offered = s.offered
  outboxes : ∀ cid c', t.connections.get cid = some c' → ∃ c, s.connections.get cid = some c ∧ c'.outbox = c.outbox

theorem Quiet.setConnection {s : Server} {cid : Nat} {c c' : Connection} (hc : s.connections.get cid = some c)
    (h : c'.outbox = c.outbox) : s.Quiet (s.setConnection cid c') := by
  refine ⟨rfl, rfl, fun x d hd => ?_⟩
  rw [Server.setConnection, IndexMap.get_insert] at hd
  split at hd
  · rename_i hx
    cases hd
    exact ⟨c, hx ▸ hc, h⟩
  · exact ⟨d, hd, rfl⟩

theorem Quiet.removed {s t : Server} {cid : Nat} (hc : t.config = s.config) (ho : t.offered = s.offered)
    (hn : t.connections = s.connections.shiftRemove cid) : s.Quiet t := by
  refine ⟨hc, ho, fun x d hd => ⟨d, ?_, rfl⟩⟩
  rw [hn, IndexMap.get_shiftRemove] at hd
  split at hd
  · cases hd
  · exact hd

/-- The delay queue and the bindings stay, no connection becomes an account's current one, and an account whose version
stays is in the room it was in. -/
structure Calm (s t : Server) : Prop where
  delayed : t.delayed = s.delayed
  players : ∀ {id b k}, t.players.get id = some b → b.connection = some k → ∃ a, s.players.get id = some a ∧
    a.connection = some k ∧ a.version ≤ b.version ∧ (b.version = a.version → b.room = a.room)
  bound : ∀ {cid c}, s.connections.get cid = some c → ∃ c', t.connections.get cid = some c' ∧ c'.player = c.player

/-- The accounts stay. -/
theorem Calm.same {s t : Server} (hd : t.delayed = s.delayed) (hp : t.players = s.players)
    (hb : ∀ {cid c}, s.connections.get cid = some c → ∃ c', t.connections.get cid = some c' ∧ c'.player = c.player) :
    s.Calm t :=
  ⟨hd, fun {_ b _} hb hk => ⟨b, hp ▸ hb, hk, Nat.le_refl _, fun _ => rfl⟩, hb⟩

theorem Calm.trans {s t u : Server} (h : s.Calm t) (h' : t.Calm u) : s.Calm u := by
  refine ⟨h'.delayed.trans h.delayed, fun hb hk => ?_, fun hc => ?_⟩
  · obtain ⟨a, ha, hka, hv, hr⟩ := h'.players hb hk
    obtain ⟨a', ha', hka', hv', hr'⟩ := h.players ha hka
    exact ⟨a', ha', hka', Nat.le_trans hv' hv, fun he => (hr (by omega)).trans (hr' (by omega))⟩
  · obtain ⟨c₁, hc₁, hp₁⟩ := h.bound hc
    obtain ⟨c₂, hc₂, hp₂⟩ := h'.bound hc₁
    exact ⟨c₂, hc₂, hp₂.trans hp₁⟩

/-- One account changes. -/
theorem Calm.setPlayer {s : Server} {id : String} {b : Player}
    (h : ∀ k, b.connection = some k → ∃ a, s.players.get id = some a ∧ a.connection = some k ∧ a.version ≤ b.version ∧
      (b.version = a.version → b.room = a.room)) : s.Calm (s.setPlayer id b) := by
  refine ⟨rfl, fun {x c k} hc hk => ?_, fun {_ c} hc => ⟨c, hc, rfl⟩⟩
  rw [Server.setPlayer, IndexMap.get_insert] at hc
  split at hc
  · rename_i hx
    cases hc
    rw [hx]
    exact h k hk
  · exact ⟨c, hc, hk, Nat.le_refl _, fun _ => rfl⟩

/-- An account changes in nothing that membership is about. -/
theorem Calm.setPlayer_same {s : Server} {id : String} {a b : Player} (ha : s.players.get id = some a)
    (hc : b.connection = a.connection) (hv : b.version = a.version) (hr : b.room = a.room) : s.Calm (s.setPlayer id b) :=
  .setPlayer (fun _ hk => ⟨a, ha, hc.symm.trans hk, Nat.le_of_eq hv.symm, fun _ => hr⟩)

/-- An account changes under a new version. -/
theorem Calm.setPlayer_next {s : Server} {id : String} {a b : Player} (ha : s.players.get id = some a)
    (hc : b.connection = a.connection) (hv : b.version = a.version + 1) : s.Calm (s.setPlayer id b) :=
  .setPlayer (fun _ hk => ⟨a, ha, hc.symm.trans hk, by omega, fun he => by omega⟩)

variable [Extern]

/-- A frame is handed over where the connection is there. -/
theorem raw_offered (s : Server) (cid : Nat) (msg : Message) :
    (s.raw cid msg).offered = if s.connections.contains cid then s.offered ++ [(cid, msg)] else s.offered := by
  unfold raw
  cases hc : s.connections.get cid with
  | none => rw [IndexMap.contains_eq_false.2 hc]; rfl
  | some c =>
    rw [IndexMap.contains_iff.2 ⟨c, hc⟩, if_pos rfl]
    dsimp only
    repeat' split
    all_goals rfl

/-- One frame, or nothing that a queue shows. -/
inductive Emit (k : Bool) (P : Message → Prop) (s : Server) : Server → Prop
  | raw (cid : Nat) {msg : Message} (h : P msg) : Emit k P s (s.raw cid msg)
  | quiet {t : Server} (h : s.Quiet t) (hc : k = true → s.Calm t) : Emit k P s t

def Emits (k : Bool) (P : Message → Prop) : Server → Server → Prop := Relation.ReflTransGen (Emit k P)

namespace Emits

variable {k : Bool} {P Q : Message → Prop} {s t u : Server}

theorem refl (s : Server) : Emits k P s s := Relation.ReflTransGen.refl

theorem trans (h : Emits k P s t) (h' : Emits k P t u) : Emits k P s u := Relation.ReflTransGen.trans h h'

theorem raw (s : Server) (cid : Nat) {msg : Message} (h : P msg) : Emits k P s (s.raw cid msg) := .single (.raw cid h)

theorem quiet (h : s.Quiet t) (hc : k = true → s.Calm t) : Emits k P s t := .single (.quiet h hc)

/-- A change of the core alone. -/
theorem core (hc : t.config = s.config) (ho : t.offered = s.offered) (hn : t.connections = s.connections)
    (h : k = true → s.Calm t) : Emits k P s t :=
  quiet ⟨hc, ho, fun _ c h => ⟨c, hn ▸ h, rfl⟩⟩ h

/-- A change of the core that shows in neither the delay queue nor the accounts. -/
theorem same (hc : t.config = s.config) (ho : t.offered = s.offered) (hn : t.connections = s.connections)
    (hd : t.delayed = s.delayed) (hp : t.players = s.players) : Emits k P s t :=
  core hc ho hn (fun _ => .same hd hp (fun {_ c} h => ⟨c, hn ▸ h, rfl⟩))

theorem setConnection {cid : Nat} {c c' : Connection} (hc : s.connections.get cid = some c) (h : c'.outbox = c.outbox)
    (hp : c'.player = c.player) : Emits k P s (s.setConnection cid c') := by
  refine quiet (.setConnection hc h) (fun _ => .same rfl rfl (fun {x d} hd => ?_))
  rw [Server.setConnection, IndexMap.get_insert]
  split
  · rename_i hx
    rw [hx, hc] at hd
    cases hd
    exact ⟨c', rfl, hp⟩
  · exact ⟨d, hd, rfl⟩

theorem mono (hPQ : ∀ m, P m → Q m) (h : Emits k P s t) : Emits k Q s t := by
  refine Relation.ReflTransGen.mono (fun a b hab => ?_) _ _ h
  cases hab with
  | raw cid h => exact .raw cid (hPQ _ h)
  | quiet h hc => exact .quiet h hc

theorem loosen (h : Emits k P s t) : Emits false P s t := by
  refine Relation.ReflTransGen.mono (fun a b hab => ?_) _ _ h
  cases hab with
  | raw cid h => exact .raw cid h
  | quiet h hc => exact .quiet h (fun he => nomatch he)

theorem foldl {α : Type} {f : Server → α → Server} (hf : ∀ s a, Emits k P s (f s a)) :
    ∀ (l : List α) (s : Server), Emits k P s (l.foldl f s)
  | [], s => .refl s
  | a :: l, s => (hf s a).trans (foldl hf l (f s a))

/-- **What every allowed `raw` and every quiet change keep, the chain keeps.** -/
theorem invariant {I : Server → Prop} (hraw : ∀ s cid m, P m → I s → I (s.raw cid m))
    (hquiet : ∀ s t, s.Quiet t → I s → I t) (h : Emits k P s t) (hs : I s) : I t := by
  induction h with
  | refl => exact hs
  | tail _ hm ih =>
    cases hm with
    | raw cid h => exact hraw _ cid _ h ih
    | quiet h _ => exact hquiet _ _ h ih

/-- What a chain adds to the offered frames. -/
theorem offered (h : Emits k P s t) : ∃ new, t.offered = s.offered ++ new ∧ ∀ x ∈ new, P x.2 := by
  refine invariant (I := fun t => ∃ new, t.offered = s.offered ++ new ∧ ∀ x ∈ new, P x.2)
    (fun t cid m hm ht => ?_) (fun t u hq ht => ?_) h ⟨[], (List.append_nil _).symm, fun x hx => nomatch hx⟩
  · obtain ⟨new, hnew, hall⟩ := ht
    rw [raw_offered]
    split
    · refine ⟨new ++ [(cid, m)], by rw [hnew, List.append_assoc], fun x hx => ?_⟩
      rcases List.mem_append.1 hx with hx | hx
      · exact hall x hx
      · rw [List.mem_singleton.1 hx]; exact hm
    · exact ⟨new, hnew, hall⟩
  · obtain ⟨new, hnew, hall⟩ := ht
    exact ⟨new, hq.offered.trans hnew, hall⟩

/-- **A calm chain is calm.** -/
theorem isCalm (h : Emits true P s t) : s.Calm t := by
  induction h with
  | refl => exact .same rfl rfl (fun {_ c} h => ⟨c, h, rfl⟩)
  | tail _ hm ih =>
    cases hm with
    | raw cid h =>
      refine ih.trans (.same (congrArg Core.delayed (raw_toCore _ cid _)) (congrArg Core.players (raw_toCore _ cid _)) ?_)
      intro x c hx
      obtain ⟨l, hl, hk⟩ := (sent_raw _ cid _).2.get (links_get hx)
      obtain ⟨c', hc', rfl⟩ := Option.map_eq_some_iff.1 hl
      exact ⟨c', hc', hk.player⟩
    | quiet h hc => exact ih.trans (hc rfl)

end Emits

/-! Frames that name no sender. -/

omit [Extern] in
theorem plain_text {m : String} {fields : List (String × Value)} (h : m ≠ "chatMsg" ∧ m ≠ "messageFromPlayer") :
    (Message.text (.obj (("method", .str m) :: fields))).Plain := by
  intro routed p a ha
  unfold senderOf at ha
  have hm : (Value.obj (("method", .str m) :: fields)).idx "method" = .str m := rfl
  rw [hm, if_neg (by simpa using h)] at ha
  cases ha

omit [Extern] in
theorem plain_error (code : String) : (Message.text (errorData code)).Plain := plain_text (by decide)

section Sending

variable {k : Bool} {P : Message → Prop} (hP : ∀ m, m.Plain → P m)

include hP

theorem emits_sendC (s : Server) (cid : Nat) {v : Value} (h : P (.text v)) : Emits k P s (s.sendC cid v) := by
  unfold sendC encoded
  split
  · rename_i msg hm
    refine .raw s cid ?_
    split at hm
    · cases hm; exact h
    · rw [Option.none_or] at hm
      split at hm
      · cases hm; exact hP _ (plain_error _)
      · cases hm
  · exact .refl s

theorem emits_send (s : Server) (p : String) {v : Value} (h : P (.text v)) : Emits k P s (s.send p v) := by
  unfold send
  split
  · exact emits_sendC hP s _ h
  · exact .refl s

theorem emits_error (s : Server) (cid : Nat) (code : String) : Emits k P s (s.error cid code) :=
  emits_sendC hP s cid (hP _ (plain_error code))

theorem emits_err (s : Server) (p code : String) : Emits k P s (s.err p code) := emits_send hP s p (hP _ (plain_error code))

theorem emits_close (s : Server) (cid code : Nat) (reason : String) : Emits k P s (s.close cid code reason) :=
  .raw s cid (hP _ (fun _ _ => trivial))

theorem emits_reply (s : Server) (p : String) (request data : Value) : Emits k P s (s.reply p request data) :=
  emits_send hP s p (hP _ (plain_text (by decide)))

theorem emits_errorReply (s : Server) (p : String) (req : Value) (code : String) : Emits k P s (s.errorReply p req code) :=
  emits_reply hP s p req _

theorem emits_relay (s : Server) (p : String) (v : Value) : Emits k P s (s.relay p v).1 := by
  unfold relay
  split
  · exact .refl s
  · exact emits_err hP s p _

theorem emits_authenticationFailed (s : Server) (cid : Nat) : Emits k P s (s.authenticationFailed cid) :=
  (emits_sendC hP s cid (hP _ (plain_text (by decide)))).trans (emits_close hP _ cid _ _)

omit hP

theorem emits_bytes (s : Server) (p : String) {b : Bytes} (h : P (.binary b)) : Emits k P s (s.bytes p b) := by
  unfold bytes
  split
  · exact .raw s _ h
  · exact .refl s

theorem emits_broadcastFrame (s : Server) (r : Room) {msg : Message} (except : Option String) (targets : Option Value)
    (h : P msg) : Emits k P s (s.broadcastFrame r msg except targets) := by
  refine Emits.foldl (fun s id => ?_) _ s
  split
  · split
    · exact .raw s _ h
    · exact .refl s
  · exact .refl s

theorem encoded_some {s : Server} {v : Value} {msg : Message} (h : s.encoded v = some msg) : msg = .text v := by
  unfold encoded at h
  split at h
  · cases h; rfl
  · cases h

theorem emits_broadcast (s : Server) (r : Room) {v : Value} (except : Option String) (targets : Option Value)
    (h : P (.text v)) : Emits k P s (s.broadcast r v except targets) := by
  unfold broadcast
  split
  · rename_i msg hm
    rw [encoded_some hm]
    exact emits_broadcastFrame s r except targets h
  · exact .refl s

theorem emits_lobby (s : Server) {v : Value} (h : P (.text v)) : Emits k P s (s.lobby v) := by
  unfold lobby
  split
  · rename_i msg hm
    rw [encoded_some hm]
    refine Emits.foldl (fun s p => ?_) _ s
    split
    · exact .raw s _ h
    · exact .refl s
  · exact .refl s

theorem emits_relayBytes (s : Server) (r : Room) (p : String) (addressed : String → Bool) {b : Bytes}
    (h : P (.binary b)) : Emits k P s (s.relayBytes r p addressed b) := by
  refine Emits.foldl (fun s id => ?_) _ s
  split
  · exact emits_bytes s id h
  · exact .refl s

end Sending

/-! Rooms. -/

omit [Extern] in
theorem removeAccount_calm (s : Server) (id : String) : s.Calm (s.removeAccount id) := by
  refine ⟨rfl, fun {x b k} hb hk => ⟨b, ?_, hk, Nat.le_refl _, fun _ => rfl⟩, fun {_ c} hc => ⟨c, hc, rfl⟩⟩
  change (s.players.shiftRemove id).get x = some b at hb
  rw [IndexMap.get_shiftRemove] at hb
  split at hb
  · cases hb
  · exact hb

theorem expire_emits {k : Bool} {P : Message → Prop} (s : Server) (now : Nat) : Emits k P s (s.expire now) :=
  Emits.foldl (f := removeAccount) (fun s id => .core rfl rfl rfl (fun _ => removeAccount_calm s id)) _ s

omit [Extern] in
/-- Accounts change by a function that keeps connections and moves between rooms under new versions. -/
theorem Calm.modify {s : Server} {id : String} {f : Player → Player} (hc : ∀ p, (f p).connection = p.connection)
    (hv : ∀ p, p.version ≤ (f p).version ∧ ((f p).version = p.version → (f p).room = p.room)) :
    s.Calm { s with players := s.players.modify id f } := by
  refine ⟨rfl, fun {x b k} hb hk => ?_, fun {_ c} hc => ⟨c, hc, rfl⟩⟩
  by_cases hx : x = id
  · subst hx
    change (s.players.modify x f).get x = some b at hb
    rw [IndexMap.get_modify, if_pos rfl] at hb
    obtain ⟨a, ha, rfl⟩ := Option.map_eq_some_iff.1 hb
    exact ⟨a, ha, (hc a).symm.trans hk, (hv a).1, (hv a).2⟩
  · change (s.players.modify id f).get x = some b at hb
    rw [IndexMap.get_modify_ne _ _ hx] at hb
    exact ⟨b, hb, hk, Nat.le_refl _, fun _ => rfl⟩

theorem releaseMembers_emits {P : Message → Prop} (s : Server) (ids : List String) :
    Emits true P s (s.releaseMembers ids) := by
  refine Emits.foldl (fun s id => ?_) ids s
  refine .core rfl rfl rfl (fun _ => .modify (fun _ => rfl) (fun p => ⟨Nat.le_succ p.version, fun he => ?_⟩))
  exact absurd he (Nat.succ_ne_self p.version)

section Tables

variable {k : Bool} {P : Message → Prop} (s : Server)

theorem removeRoom_emits (id : String) : Emits k P s (s.removeRoom id) := .same rfl rfl rfl rfl rfl

theorem setRoom_emits (id : String) (r : Room) : Emits k P s (s.setRoom id r) := .same rfl rfl rfl rfl rfl

theorem setPlayer_emits {id : String} {p : Player} (h : k = true → s.Calm (s.setPlayer id p)) :
    Emits k P s (s.setPlayer id p) := .core rfl rfl rfl h

theorem record_emits (es : List Event) : Emits k P s (s.record es) := .same rfl rfl rfl rfl rfl

theorem store_emits (st : Store) : Emits k P s { s with store := st } := .same rfl rfl rfl rfl rfl

end Tables

theorem keep_emits (env : Env) (s : Server) (r : Room) : Emits true Message.Plain s (s.keep env r) := by
  unfold keep
  split
  · split
    · dsimp only
      split
      · refine Emits.trans ?_ (Emits.foldl (fun s id => ?_) _ _)
        · exact .same rfl rfl rfl rfl rfl
        · exact emits_lobby s (plain_text (by decide))
      · exact .same rfl rfl rfl rfl rfl
    · exact .same rfl rfl rfl rfl rfl
  · exact .same rfl rfl rfl rfl rfl

theorem seatIn_emits (env : Env) (s : Server) {p : String} (id : String) {player : Player} (loaded : Option Room)
    (r : Room) (hp : s.players.get p = some player) : Emits true Message.Plain s (s.seatIn env p id player loaded r) := by
  unfold seatIn
  dsimp only
  have htables := (record_emits (k := true) (P := Message.Plain) s (entryEvents loaded r p)).trans
    (setRoom_emits _ id (joined r p))
  refine Emits.trans (Emits.trans (htables.trans (setPlayer_emits _ ?_)) (emits_broadcast _ _ _ _ ?_))
    (emits_send (fun _ h => h) _ p ?_)
  · exact fun _ => .setPlayer_next (a := player) hp rfl rfl
  · exact plain_text (by decide)
  · exact plain_text (by decide)

theorem enter_emits (env : Env) (s : Server) (p id : String) (password : Value) :
    (s.enter env p id password).All (Emits true Message.Plain s) := by
  have herr := fun (s : Server) code => emits_err (k := true) (P := Message.Plain) (fun _ h => h) s p code
  refine enter_all (.refl s) (fun t code ht => ht.trans (herr t code)) (setRoom_emits s id)
    (fun t ht => ht.trans (removeRoom_emits t id)) (fun t player loaded r hp hpl ht => ?_)
  exact ht.trans (seatIn_emits env t id loaded r (hpl ▸ hp))

theorem offerSeats_emits (s : Server) (r : Room) : Emits true Message.Plain s (s.offerSeats r) := by
  unfold offerSeats
  split
  · refine Emits.foldl (fun s id => ?_) _ s
    split
    · exact emits_send (fun _ h => h) s id (plain_text (by decide))
    · exact .refl s
  · exact .refl s

theorem leave_emits (env : Env) (s : Server) (p : String) (disconnected : Bool) :
    (s.leave env p disconnected).All (Emits true Message.Plain s) := by
  unfold leave
  refine Out.all_unwrap (fun player hp => ?_)
  dsimp only
  generalize hs₁ : (if disconnected then s.setPlayer p (releasePlayer player)
    else (s.setPlayer p (releasePlayer player)).dropReservations p) = s₁
  have h₁ : Emits true Message.Plain s s₁ := by
    have hrelease : Emits true Message.Plain s (s.setPlayer p (releasePlayer player)) :=
      setPlayer_emits s (fun _ => .setPlayer_next hp rfl rfl)
    rw [← hs₁]
    split
    · exact hrelease
    · exact hrelease.trans (.same rfl rfl rfl rfl rfl)
  split
  · exact h₁
  rename_i id _
  split
  · exact h₁
  rename_i r _
  have h₂ : Emits true Message.Plain s (s₁.removeRoom id) := h₁.trans (.same rfl rfl rfl rfl rfl)
  refine Out.all_ite (fun _ => ?_) (fun _ => Out.all_unwrap (fun first _ => ?_))
  all_goals
    generalize hs₃ : Server.broadcast (s₁.removeRoom id) (departed r p disconnected) _ none none = s₃
    have h₃ : Emits true Message.Plain s s₃ := by
      rw [← hs₃]
      exact h₂.trans (emits_broadcast _ _ none none (plain_text (by cases disconnected <;> decide)))
    generalize hs₄ : (if ownerLost (departed r p disconnected) p then
      s₃.releaseMembers (departed r p disconnected).active.items else s₃) = s₄
    have h₄ : Emits true Message.Plain s s₄ := by
      rw [← hs₄]
      split
      · exact h₃.trans (releaseMembers_emits s₃ _)
      · exact h₃
  · exact Out.all_ite (fun _ => h₄.trans (keep_emits env s₄ _)) (fun _ => h₄.trans (emits_lobby s₄ (plain_text (by decide))))
  · generalize (if ownerLost (departed r p disconnected) p then
      { departed r p disconnected with active := IndexSet.empty } else departed r p disconnected) = r₁
    refine h₄.trans (.trans ?_ ((offerSeats_emits _ _).trans (.same rfl rfl rfl rfl rfl)))
    split
    · exact (record_emits s₄ _).trans (emits_broadcast _ _ none none (plain_text (by decide)))
    · exact .refl s₄

theorem disconnect_emits (env : Env) (s : Server) (cid : Nat) : (s.disconnect env cid).All (Emits false Message.Plain s) := by
  unfold disconnect
  split
  · exact .refl s
  rename_i c _
  dsimp only
  generalize ht : ({ s with delayed := s.delayed.filter (fun d => decide (d.cid ≠ cid)),
                            connections := s.connections.shiftRemove cid } : Server) = t
  have h : Emits false Message.Plain s t := by rw [← ht]; exact .quiet (.removed rfl rfl rfl) (fun he => nomatch he)
  split
  · exact h
  split
  · exact h
  rename_i pid _ _ p _
  split
  · generalize hu : t.setPlayer pid { p with connection := none, offline := some env.now } = u
    have hset : Emits false Message.Plain s u := by rw [← hu]; exact h.trans (setPlayer_emits t (fun he => nomatch he))
    have hl := (leave_emits env u pid true).mono (fun _ h => h.loosen)
    generalize leave env u pid true = o at hl
    cases o with
    | ok v => exact hset.trans hl
    | err v => exact hset.trans hl
    | halt _ => trivial
  · exact h

end Server
end Relay
