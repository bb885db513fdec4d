import GameRelay.Roster
import GameRelay.Trace
/-!
# Tickets — who may report whom (`getModerationTicket`)

A report is decided by the room's owner and its fixed roster; nobody asks who is in the room.  `Room.Enrolled` says what
the roster is at every stage of a room's life: nobody's before a fixed start, and at least the members' from then on.
So **a ticket is issued to everyone entitled, except to members of a room without a fixed roster** (`tickets_follow_roster`).
-/
namespace Relay

open Function (update)

/-- The roster at each stage: empty until a fixed start, which enrols the members; later ones are of the roster. -/
structure Room.Enrolled (r : Room) : Prop where
  started : r.fixed = true → r.started = true
  empty : r.fixed = false → ∀ p, ¬ p ∈ r.players
  members : r.fixed = true → ∀ p ∈ r.active, p ∈ r.players

namespace Room.Enrolled

variable {r r' : Room} {p : String}

/-- The roster stays, and nobody new is in. -/
theorem shrink (h : r.Enrolled) (hs : r'.started = r.started) (hf : r'.fixed = r.fixed) (hp : r'.players = r.players)
    (ha : ∀ q ∈ r'.active, q ∈ r.active) : r'.Enrolled :=
  ⟨fun h' => hs ▸ h.started (hf ▸ h'), fun h' => hp ▸ h.empty (hf ▸ h'), fun h' q hq => hp ▸ h.members (hf ▸ h') q (ha q hq)⟩

/-- **Who enters a fixed game is of its roster.** -/
theorem joined (h : r.Enrolled) {pw : Value} (he : Server.entryError r p pw = none) : (Server.joined r p).Enrolled := by
  have hrejoin : r.fixed = true → p ∈ r.players := by
    intro hf
    unfold Server.entryError at he
    rw [h.started hf] at he
    simp only [Bool.not_true, Bool.false_and, Bool.false_eq_true, if_false, Bool.true_and] at he
    split at he
    · cases he
    · rename_i hr
      unfold Room.rejoin at hr
      rw [if_pos hf] at hr
      simpa using hr
  have hjoin : (Server.joined r p).started = r.started ∧ (Server.joined r p).fixed = r.fixed ∧
      (Server.joined r p).active = r.active.insert p ∧ (Server.joined r p).players = r.players := by
    unfold Server.joined
    dsimp only
    split <;> exact ⟨rfl, rfl, rfl, rfl⟩
  obtain ⟨hs, hf, ha, hp⟩ := hjoin
  refine ⟨fun h' => hs ▸ h.started (hf ▸ h'), fun h' => hp ▸ h.empty (hf ▸ h'), fun h' q hq => ?_⟩
  rw [hp]
  rcases IndexSet.mem_insert.1 (ha ▸ hq) with rfl | hq
  · exact hrejoin (hf ▸ h')
  · exact h.members (hf ▸ h') q hq

theorem departed (h : r.Enrolled) (p : String) (d : Bool) : (Server.departed r p d).Enrolled := by
  obtain ⟨hs, hf, hp, -, -⟩ := departed_fixed r p d
  refine h.shrink hs hf hp (fun q hq => ?_)
  rw [departed_active] at hq
  exact (IndexSet.mem_shiftRemove.1 hq).1

theorem remains (h : r.Enrolled) (p : String) (d : Bool) : (remains r p d).Enrolled := by
  unfold Relay.remains
  split
  · exact (h.departed p d).shrink rfl rfl rfl (fun q hq => absurd hq IndexSet.mem_empty)
  · exact h.departed p d

theorem handedOver (h : r.Enrolled) (p first : String) : (handedOver r p first).Enrolled := by
  unfold Relay.handedOver
  split
  · exact h.shrink rfl rfl rfl (fun _ hq => hq)
  · exact h

theorem timeoutUpload (h : r.Enrolled) (now : Nat) : (Server.timeoutUpload now r).Enrolled := by
  unfold Server.timeoutUpload
  split
  · exact h.shrink rfl rfl rfl (fun _ hq => hq)
  · exact h

/-- A started room's roster is its members, if it is fixed. -/
theorem started_room (h : r.Enrolled) (hs : r.started = false) (enabled : Bool) (d : Value) (now : Nat) :
    (startedRoom enabled r d now).Enrolled := by
  have hfixed : r.fixed = false := by
    cases hf : r.fixed with
    | false => rfl
    | true => exact absurd (h.started hf) (by rw [hs]; decide)
  have hplayers : (startedRoom enabled r d now).players =
      if (startedRoom enabled r d now).fixed = true then r.active else r.players := rfl
  refine ⟨fun _ => rfl, fun hf => ?_, fun hf q hq => ?_⟩
  · rw [hplayers, if_neg (by rw [hf]; decide)]
    exact h.empty hfixed
  · rw [hplayers, if_pos hf]
    exact hq

end Room.Enrolled

variable [Extern]

theorem Edit.enrolled {c : Config} {jobs jobs' : String → List Value} {p : String} {d : Value} {r r' : Room}
    {es : List Event} (h : Edit c jobs p d r r' es jobs') (hr : r.Enrolled) : r'.Enrolled := by
  cases h with
  | settings =>
    unfold joinClosed
    split
    · exact hr.shrink rfl rfl rfl (fun _ hq => hq)
    · exact hr.shrink rfl rfl rfl (fun _ hq => hq)
  | started ho hs => exact hr.started_room hs _ d _
  | none => exact hr
  | metadata => exact hr.shrink rfl rfl rfl (fun _ hq => hq)
  | pushed => exact hr.shrink rfl rfl rfl (fun _ hq => hq)
  | began => exact hr.shrink rfl rfl rfl (fun _ hq => hq)
  | commit => exact hr.shrink rfl rfl rfl (fun _ hq => hq)

/-- **Every change of a live room keeps it enrolled.** -/
theorem Change.enrolled {w : World} {id : String} {a : Act} {o o' : Option Room} (h : Change w id a o o')
    (ho : ∀ r, o = some r → r.Enrolled) : ∀ r, o' = some r → r.Enrolled := by
  intro r' hr'
  have unseated : ∀ {p : String} {d : Bool} {r₀ r : Room}, dropSeat (some r₀) p d = some r → r₀.Enrolled → r.Enrolled := by
    intro p d r₀ r hr h₀
    unfold dropSeat at hr
    split at hr
    · cases hr; exact h₀
    · cases hr; exact h₀.shrink rfl rfl rfl (fun _ hq => hq)
  cases h with
  | same => exact ho _ hr'
  | gone => cases hr'
  | unseated p => cases hr'; exact (ho _ rfl).shrink rfl rfl rfl (fun _ hq => hq)
  | timedOut => cases hr'; exact (ho _ rfl).timeoutUpload _
  | kept ha hr => cases hr'; exact (unseated hr (ho _ rfl)).remains _ _
  | stayed ha hr hf => cases hr'; exact ((unseated hr (ho _ rfl)).remains _ _).handedOver _ _
  | created ha hfile hroom hmax hfit =>
    rename_i p name v pw game r max now binary
    cases hr'
    have hnew : r.Enrolled := by
      rw [hroom]
      exact ⟨(fun hf => by cases hf), fun _ _ hq => IndexSet.mem_empty hq, (fun hf => by cases hf)⟩
    have hentry : Server.entryError r p pw = none := by
      rw [hroom]
      unfold Server.entryError
      simp [Room.new, IndexSet.empty, IndexSet.size]
      omega
    exact hnew.joined hentry
  | woken ha hfile hid hlen hroom he =>
    cases hr'
    refine Room.Enrolled.joined ?_ he
    rw [hroom]
    exact ⟨fun _ => rfl, (fun hf => by cases hf), fun _ q hq => absurd hq IndexSet.mem_empty⟩
  | joined ha he => cases hr'; exact (ho _ rfl).joined he
  | edited ha hm he => cases hr'; exact he.enrolled (ho _ rfl)
  | wrote => cases hr'; exact (ho _ rfl).shrink rfl rfl rfl (fun _ hq => hq)
  | rejected => cases hr'; exact (ho _ rfl).shrink rfl rfl rfl (fun _ hq => hq)

/-- **In every world of a run the live rooms are enrolled.** -/
theorem Path.enrolled {w : World} {ws : Nat → World} (hk : w.Keyed) (hs : w.Seated) (hw : ∀ id r, w.rooms id = some r → r.Enrolled) :
    ∀ {n : Nat}, Path w ws n → ∀ id r, (ws n).rooms id = some r → r.Enrolled
  | 0, h => by rw [h.start]; exact hw
  | n + 1, h => by
    intro id
    obtain ⟨a, hc⟩ := h.change hk hs id (Nat.lt_succ_self n)
    exact hc.enrolled (Path.enrolled hk hs hw (h.mono (Nat.le_succ n)) id)

namespace Server

/-- The answer to a report, and what it is about. -/
def reportPayload (now : Nat) (p target room : String) : Value :=
  .obj [("reporter", .str p), ("target", .str target), ("room", .str room), ("expires", .ofNat (now + 300000)),
    ("purpose", .str "profile-report-v1")]

/-- A payload with its signature. -/
def signedTicket (key : String) (payload : Value) : String :=
  let text := Extern.base64Url (Extern.toVec payload)
  text ++ "." ++ Extern.base64Url (Extern.hmacSha256 key.toUTF8.toList text.toUTF8.toList)

/-- The ticket `p` gets for a report of `target` in the room, if any. -/
def ticket (env : Env) (s : Server) (p target room : String) : Option String :=
  if s.config.moderationSigningKey.isEmpty || !s.mayReport p target room then none
  else some (signedTicket s.config.moderationSigningKey (reportPayload env.now p target room))

/-- What a report is answered with. -/
def ticketReply : Option String → Value
  | some t => .obj [("ticket", .str t)]
  | none => .obj [("error", .str "moderation_unavailable")]

/-- The message asks for a ticket. -/
structure AsksTicket (s : Server) (v : Value) (target room : String) : Prop where
  valid : ∃ txt, s.Valid txt v "getModerationTicket"
  target : (v.idx "data").idx "target" = .str target
  room : (v.idx "data").idx "room" = .str room

/-- **A report is answered with its ticket, or refused.** -/
theorem AsksTicket.handle {s : Server} {v : Value} {target room : String} (h : s.AsksTicket v target room) (env : Env)
    (cid : Nat) (p : String) : s.handle env cid p v =
      .ok (s.reply p ((v.idx "data").idx "requestId") (ticketReply (s.ticket env p target room))) := by
  obtain ⟨txt, hv⟩ := h.valid
  unfold Server.handle
  rw [hv.method]
  simp only [Out.unwrap, String.reduceEq, if_false, if_true]
  unfold getModerationTicket ticket
  rw [h.target, h.room]
  dsimp only [Out.unwrap, Value.asStr]
  split
  · rfl
  · rfl

/-- The room is live, and `t` is another account that owns it or is in it together with `p`. -/
def Entitled (s : Server) (p t room : String) : Prop :=
  ∃ r, s.rooms.get room = some r ∧ t ≠ p ∧ (r.owner = t ∨ (p ∈ r.active ∧ t ∈ r.active))

/-- As far as that goes, or they are of its fixed roster. -/
def Related (s : Server) (p t room : String) : Prop :=
  ∃ r, s.rooms.get room = some r ∧ t ≠ p ∧
    (r.owner = t ∨ (p ∈ r.active ∧ t ∈ r.active) ∨ (r.fixed = true ∧ p ∈ r.players ∧ t ∈ r.players))

/-- Tickets are issued to whoever is entitled and to nobody unrelated, and each names its reporter, target and room. -/
structure TicketLaw (env : Env) (s : Server) (p t room : String) : Prop where
  issued : s.Entitled p t room → (s.ticket env p t room).isSome
  refused : ¬ s.Related p t room → s.ticket env p t room = none
  names : ∀ x, s.ticket env p t room = some x → x = signedTicket s.config.moderationSigningKey (reportPayload env.now p t room)

/-- The room has a fixed roster, or `t` owns it, or they are not both in it. -/
def Rostered (s : Server) (p t room : String) : Prop :=
  ∀ r, s.rooms.get room = some r → t ≠ p → r.fixed = true ∨ r.owner = t ∨ ¬ (p ∈ r.active ∧ t ∈ r.active)

omit [Extern] in
theorem mayReport_iff {s : Server} {p t room : String} : s.mayReport p t room = true ↔
    ∃ r, s.rooms.get room = some r ∧ t ≠ p ∧ (r.owner = t ∨ (p ∈ r.players ∧ t ∈ r.players)) := by
  unfold mayReport
  simp only [Option.any_eq_true, Bool.and_eq_true, Bool.or_eq_true, decide_eq_true_eq, IndexSet.contains_iff]

/-- **The law holds of a report just when the roster answers for it.** -/
theorem ticketLaw_iff {s : Server} (henrolled : ∀ id r, s.rooms.get id = some r → r.Enrolled)
    (hkey : s.config.moderationSigningKey.isEmpty = false) (env : Env) (p t room : String) :
    s.TicketLaw env p t room ↔ s.Rostered p t room := by
  have hticket : s.ticket env p t room = if s.mayReport p t room then
      some (signedTicket s.config.moderationSigningKey (reportPayload env.now p t room)) else none := by
    unfold ticket
    rw [hkey]
    cases s.mayReport p t room <;> rfl
  have hsome : (s.ticket env p t room).isSome ↔ s.mayReport p t room = true := by
    rw [hticket]
    cases s.mayReport p t room <;> simp
  constructor
  · intro h r hr hne
    by_contra hno
    simp only [not_or, not_not] at hno
    obtain ⟨hfixed, howner, hactive⟩ := hno
    obtain ⟨r', hr', -, hroster⟩ := mayReport_iff.1 (hsome.1 (h.issued ⟨r, hr, hne, .inr hactive⟩))
    rw [hr] at hr'
    cases hr'
    exact (henrolled room r hr).empty (eq_false_of_ne_true hfixed) p (hroster.resolve_left howner).1
  · intro h
    refine ⟨fun he => hsome.2 (mayReport_iff.2 ?_), fun hn => ?_, fun x hx => ?_⟩
    · obtain ⟨r, hr, hne, hwhy⟩ := he
      refine ⟨r, hr, hne, ?_⟩
      rcases hwhy with ho | hactive
      · exact .inl ho
      · rcases h r hr hne with hf | ho | hno
        · exact .inr ⟨(henrolled room r hr).members hf p hactive.1, (henrolled room r hr).members hf t hactive.2⟩
        · exact .inl ho
        · exact absurd hactive hno
    · refine Option.not_isSome_iff_eq_none.1 (fun hs => hn ?_)
      obtain ⟨r, hr, hne, hwhy⟩ := mayReport_iff.1 (hsome.1 hs)
      refine ⟨r, hr, hne, hwhy.imp_right (fun hroster => .inr ⟨?_, hroster⟩)⟩
      by_contra hf
      exact (henrolled room r hr).empty (eq_false_of_ne_true hf) p hroster.1
    · rw [hticket] at hx
      split at hx
      · cases hx; rfl
      · cases hx

/-- **Tickets follow the roster.**  In every reachable state every request for a ticket is answered with the ticket, or
refused; with a signing key, that follows the law of tickets exactly when the room has a fixed roster, the target owns it
or requester and target are not both in it (or there is no such room or no other account). -/
theorem tickets_follow_roster {config : Config} {store : Store} {push : Bool} {s : Server}
    (h : Run (fun _ _ _ => True) (boot config store push) s) (hkey : config.moderationSigningKey.isEmpty = false) (env : Env)
    (cid : Nat) (p : String) {v : Value} {t room : String} (hv : s.AsksTicket v t room) :
    s.handle env cid p v = .ok (s.reply p ((v.idx "data").idx "requestId") (ticketReply (s.ticket env p t room))) ∧
      (s.TicketLaw env p t room ↔ s.Rostered p t room) := by
  have hb := boot_base config store push
  refine ⟨hv.handle env cid p, ticketLaw_iff (fun id r hr => ?_) ?_ env p t room⟩
  · obtain ⟨ws, n, hpath, hws⟩ := h.path hb
    refine hpath.enrolled hb.keyed (boot_seated config store push) (fun _ _ hr => nomatch hr) id r ?_
    rw [hws]
    exact hr
  · have := (Run.base h hb).config
    rw [show s.config = config from this]
    exact hkey

end Server

namespace Trace

/-- The default settings with a signing key. -/
def withKey : Config := { Config.default with moderationSigningKey := "0123456789abcdef0123456789abcdef" }

def report (target : String) : Value := message "getModerationTicket"
  [("requestId", .str request.text), ("target", .str target), ("room", .str room)]

end Trace

namespace Server

omit [Extern] in
/-- A guest reports the owner of the room. -/
theorem tickets_follow_roster_owner :
    letI := Extern.reading [Trace.signUp, Trace.createRoom, Trace.enterRoom, Trace.report Trace.account]
    ∃ s, Run (fun _ _ _ => True) (boot Trace.withKey .empty false) s ∧
      s.TicketLaw (Env.plain 2) Trace.guest Trace.account Trace.room ∧
      (s.ticket (Env.plain 2) Trace.guest Trace.account Trace.room).isSome := by
  let _ := Extern.reading [Trace.signUp, Trace.createRoom, Trace.enterRoom, Trace.report Trace.account]
  have h : (exec (fun _ _ _ => true) Trace.shared (boot Trace.withKey .empty false)).any (fun s =>
      (s.rooms.get Trace.room).any (fun r => decide (r.owner = Trace.account)) &&
      decide (Protocol.parse (plainText (Trace.report Trace.account)) = some (Trace.report Trace.account)) &&
      Protocol.validate (Trace.report Trace.account) s.config.maxRoomPlayers s.config.maxAccounts) = true := by
    decide +kernel
  obtain ⟨s, hs, h⟩ := (Option.any_eq_true _ _).1 h
  simp only [Bool.and_eq_true, decide_eq_true_eq] at h
  obtain ⟨⟨hr, hparse⟩, hvalid⟩ := h
  obtain ⟨r, hr, howner⟩ := (Option.any_eq_true _ _).1 hr
  have hrun : Run (fun _ _ _ => True) (boot Trace.withKey .empty false) s := exec_run (fun _ _ _ _ => trivial) hs
  have hlaw := (tickets_follow_roster hrun (by decide) (Env.plain 2) 2 Trace.guest
    (v := Trace.report Trace.account) ⟨⟨_, hparse, hvalid, rfl⟩, rfl, rfl⟩).2.2 (fun r' hr' _ => by
      rw [hr] at hr'
      cases hr'
      exact .inr (.inl (of_decide_eq_true howner)))
  exact ⟨s, hrun, hlaw, hlaw.issued ⟨r, hr, by decide +kernel, .inl (of_decide_eq_true howner)⟩⟩

omit [Extern] in
/-- **Two members of a room that has not started cannot report each other**, unless it is its owner who is reported. -/
theorem members_cannot_report :
    letI := Extern.reading [Trace.signUp, Trace.createRoom, Trace.enterRoom, Trace.report Trace.guest]
    ∃ s, Run (fun _ _ _ => True) (boot Trace.withKey .empty false) s ∧ s.AsksTicket (Trace.report Trace.guest) Trace.guest Trace.room ∧
      s.Entitled Trace.account Trace.guest Trace.room ∧
      s.ticket (Env.plain 2) Trace.account Trace.guest Trace.room = none ∧
      ¬ s.TicketLaw (Env.plain 2) Trace.account Trace.guest Trace.room := by
  let _ := Extern.reading [Trace.signUp, Trace.createRoom, Trace.enterRoom, Trace.report Trace.guest]
  have h : (exec (fun _ _ _ => true) Trace.shared (boot Trace.withKey .empty false)).any (fun s =>
      (s.rooms.get Trace.room).any (fun r => r.active.contains Trace.account && r.active.contains Trace.guest) &&
      decide (s.ticket (Env.plain 2) Trace.account Trace.guest Trace.room = none) &&
      decide (Protocol.parse (plainText (Trace.report Trace.guest)) = some (Trace.report Trace.guest)) &&
      Protocol.validate (Trace.report Trace.guest) s.config.maxRoomPlayers s.config.maxAccounts) = true := by
    decide +kernel
  obtain ⟨s, hs, h⟩ := (Option.any_eq_true _ _).1 h
  simp only [Bool.and_eq_true, decide_eq_true_eq] at h
  obtain ⟨⟨⟨hr, hnone⟩, hparse⟩, hvalid⟩ := h
  obtain ⟨r, hr, hin⟩ := (Option.any_eq_true _ _).1 hr
  simp only [Bool.and_eq_true, IndexSet.contains_iff] at hin
  have hentitled : s.Entitled Trace.account Trace.guest Trace.room := ⟨r, hr, by decide +kernel, .inr hin⟩
  refine ⟨s, exec_run (fun _ _ _ _ => trivial) hs, ⟨⟨_, hparse, hvalid, rfl⟩, rfl, rfl⟩, hentitled, hnone, fun hlaw => ?_⟩
  have := hlaw.issued hentitled
  rw [hnone] at this
  cases this

end Server
end Relay
