import GameRelay.Acknowledged
import GameRelay.Ledger
/-!
# Commits — session saves lose no update

`Session` is what saving is about: who hosts a room under which generation, its world, and the upload in progress.
`Session.Step` is its protocol, with the events each step records; `Turn.session` says that every turn of a room is a
step.  From the protocol alone: a commit is the upload of one `beginSession`, whole and in order, by one host under one
generation, over the revision it named (`CommitLaw`).
-/
namespace Relay

structure Session where
  owner : String
  generation : Nat
  persistent : Bool
  revision : Nat
  state : Bytes
  upload : Option Upload

def Room.session (r : Room) : Session := ⟨r.owner, r.generation, r.persistent, r.revision, r.state, r.upload⟩

/-- **The protocol of saving.**  `past` is the room's history before the step. -/
inductive Session.Step (id : String) (past : List Event) : Option Session → List Event → Option Session → Prop
  | quiet (o : Option Session) : Step id past o [] o
  | started {s : Session} (hp : s.persistent = false) (hu : s.upload = none) :
      Step id past (some s) [.started id] (some { s with persistent := true })
  | gone {es : List Event} (o : Option Session) (hes : ∀ e ∈ es, e = .evicted id) : Step id past o es none
  | created {s : Session} (hpast : past = []) (hp : s.persistent = false) (hg : s.generation = 0) (hu : s.upload = none) :
      Step id past none [.created id s.owner] (some s)
  | woken {s : Session} (hp : s.persistent = true) (hu : s.upload = none) :
      Step id past none [.woken id, .hosted id s.owner s.generation] (some s)
  | hosted {s : Session} {p : String} {u : Option Upload} (hu : u = none ∨ u = s.upload)
      (ho : ∀ x, s.upload = some x → x.owner = s.owner → u = none) :
      Step id past (some s) [.hosted id p (s.generation + 1)]
        (some { s with owner := p, generation := s.generation + 1, upload := u })
  | cleared (s : Session) : Step id past (some s) [] (some { s with upload := none })
  | began {s : Session} {req : String} {size time : Nat} :
      Step id past (some s) [.began id s.owner req s.generation s.revision size] (some { s with
        upload := some { id := req, owner := s.owner, generation := s.generation, revision := s.revision,
                         bytes := List.replicate size 0, offset := 0, time := time } })
  | uploaded {s : Session} {u : Upload} {payload : Bytes} {time : Nat} (hu : s.upload = some u)
      (hfit : u.offset + payload.length ≤ u.bytes.length) :
      Step id past (some s) [.uploaded id u.owner payload] (some { s with upload := some (u.write payload time) })
  | committed {s : Session} {u : Upload} (hp : s.persistent = true) (hu : s.upload = some u) (hfull : u.offset = u.bytes.length) :
      Step id past (some s) [.committed id s.owner (s.revision + 1) u.bytes]
        (some { s with revision := s.revision + 1, state := u.bytes, upload := none })

/-! What the history tells. -/

def hosting (h : Option (String × Nat)) : Event → Option (String × Nat)
  | .created _ owner => some (owner, 0)
  | .hosted _ owner generation => some (owner, generation)
  | _ => h

/-- The host of the room and its generation. -/
def hostOf (past : List Event) : Option (String × Nat) := past.foldl hosting none

def settle (w : Saved) : Event → Saved
  | .committed _ _ revision state => (revision, state)
  | _ => w

/-- The greatest revision committed since the room last woke. -/
def reached (n : Nat) : Event → Nat
  | .woken _ => 0
  | .committed _ _ revision _ => max n revision
  | _ => n

def committedSince (past : List Event) : Nat := past.foldl reached 0

theorem hostOf_append (a b : List Event) : hostOf (a ++ b) = b.foldl hosting (hostOf a) := List.foldl_append ..

theorem committedSince_append (a b : List Event) : committedSince (a ++ b) = b.foldl reached (committedSince a) :=
  List.foldl_append ..

theorem le_committedSince {n : Nat} : ∀ {b : List Event}, (∀ x, .woken x ∉ b) →
    ∀ {m : Nat}, n ≤ m → n ≤ b.foldl reached m
  | [], _, _, h => h
  | e :: b, hb, m, h => by
    refine le_committedSince (b := b) (fun x hx => hb x (List.mem_cons_of_mem _ hx)) ?_
    cases e with
    | woken x => exact absurd (List.mem_cons_self ..) (hb x)
    | committed x p rev st => exact Nat.le_trans h (Nat.le_max_left ..)
    | _ => exact h

/-- **A commit is one upload**: since one `beginSession` only its chunks came, by the same host under the same
generation; they add up to the declared size; and the revision is the next after the one it named, beyond every one
committed since the room woke. -/
def CommitLaw (id : String) (pre : List Event) (e : Event) : Prop :=
  ∀ p revision state, e = .committed id p revision state →
    (∃ pre' req generation base, ∃ payloads : List Bytes,
      pre = pre' ++ .began id p req generation base state.length :: payloads.map (.uploaded id p) ∧
      hostOf pre' = some (p, generation) ∧ hostOf pre = some (p, generation) ∧
      revision = base + 1 ∧ state = payloads.flatten) ∧
    ∀ a q n st b, pre = a ++ .committed id q n st :: b → (∀ x, .woken x ∉ b) → n < revision

/-- What the protocol keeps. -/
structure Session.Inv (id : String) (o : Option Session) (past : List Event) : Prop where
  host : ∀ s, o = some s → hostOf past = some (s.owner, s.generation)
  upload : ∀ s u, o = some s → s.upload = some u → u.owner = s.owner ∧ u.generation = s.generation ∧
    u.revision = s.revision ∧ u.offset ≤ u.bytes.length
  pending : ∀ s u, o = some s → s.upload = some u → ∃ pre, ∃ payloads : List Bytes,
    past = pre ++ .began id u.owner u.id u.generation u.revision u.bytes.length :: payloads.map (.uploaded id u.owner) ∧
      hostOf pre = some (u.owner, u.generation) ∧ u.bytes.take u.offset = payloads.flatten
  recent : ∀ s, o = some s → committedSince past ≤ s.revision
  law : Ledger (CommitLaw id) past

theorem CommitLaw.free {id : String} {e : Event} (h : ∀ p n st, e ≠ .committed id p n st) (pre : List Event) :
    CommitLaw id pre e := fun p n st he => absurd he (h p n st)

/-- A written chunk extends what was received. -/
theorem Upload.write_spec {u : Upload} {payload : Bytes} (now : Nat) (h : u.offset + payload.length ≤ u.bytes.length) :
    (u.write payload now).bytes.length = u.bytes.length ∧
      (u.write payload now).bytes.take (u.write payload now).offset = u.bytes.take u.offset ++ payload := by
  unfold Upload.write
  have hlen : (u.bytes.take u.offset ++ payload).length = u.offset + payload.length := by
    rw [List.length_append, List.length_take, Nat.min_eq_left (by omega)]
  refine ⟨?_, ?_⟩
  · show (u.bytes.take u.offset ++ payload ++ u.bytes.drop _).length = _
    rw [List.length_append, hlen, List.length_drop]
    omega
  · show (u.bytes.take u.offset ++ payload ++ u.bytes.drop _).take (u.offset + payload.length) = _
    rw [← hlen, List.take_left]

/-- **Every step of the protocol keeps it.** -/
theorem Session.Step.inv {id : String} {past es : List Event} {o o' : Option Session} (h : Step id past o es o')
    (hi : Inv id o past) : Inv id o' (past ++ es) := by
  have free : (∀ e ∈ es, ∀ p n st, e ≠ .committed id p n st) → Ledger (CommitLaw id) (past ++ es) := fun hes =>
    hi.law.append_free (fun e he pre => .free (hes e he) pre)
  -- the state stays, and no host or commit comes
  have same : ∀ {o' : Option Session}, (∀ s', o' = some s' → ∃ s, o = some s ∧ s'.owner = s.owner ∧
        s'.generation = s.generation ∧ s'.revision = s.revision ∧ (s'.upload = none ∨ (es = [] ∧ s'.upload = s.upload))) →
      hostOf (past ++ es) = hostOf past → committedSince (past ++ es) = committedSince past →
      Ledger (CommitLaw id) (past ++ es) → Inv id o' (past ++ es) := by
    intro o' ho hhost hsince hlaw
    refine ⟨fun s' hs' => ?_, fun s' u hs' hu => ?_, fun s' u hs' hu => ?_, fun s' hs' => ?_, hlaw⟩
    · obtain ⟨s, hs, h₁, h₂, -⟩ := ho s' hs'
      rw [hhost, hi.host s hs, h₁, h₂]
    · obtain ⟨s, hs, h₁, h₂, h₃, h₄ | ⟨-, h₄⟩⟩ := ho s' hs'
      · rw [h₄] at hu; cases hu
      · rw [h₁, h₂, h₃]; exact hi.upload s u hs (h₄ ▸ hu)
    · obtain ⟨s, hs, h₁, h₂, h₃, h₄ | ⟨hnil, h₄⟩⟩ := ho s' hs'
      · rw [h₄] at hu; cases hu
      · rw [hnil, List.append_nil]; exact hi.pending s u hs (h₄ ▸ hu)
    · obtain ⟨s, hs, -, -, h₃, -⟩ := ho s' hs'
      rw [hsince, h₃]
      exact hi.recent s hs
  cases h with
  | quiet o =>
    rw [List.append_nil]
    exact hi
  | started hp hu =>
    rename_i s
    refine same (fun s' hs' => ?_) (by rw [hostOf_append]; rfl) (by rw [committedSince_append]; rfl) (free ?_)
    · cases hs'
      exact ⟨s, rfl, rfl, rfl, rfl, .inl hu⟩
    · intro e he p n st h
      rw [h] at he
      exact absurd (List.mem_singleton.1 he) (by intro h; cases h)
  | gone o hes =>
    refine ⟨(fun _ h => nomatch h), (fun _ _ h => nomatch h), (fun _ _ h => nomatch h), (fun _ h => nomatch h), ?_⟩
    exact free (fun e he p n st h => by rw [hes e he] at h; cases h)
  | created hpast hp hg hu =>
    rename_i s
    subst hpast
    refine ⟨fun s' hs' => ?_, fun s' u hs' hu' => ?_, fun s' u hs' hu' => ?_, fun s' hs' => ?_, free ?_⟩
    · cases hs'; rw [hg]; rfl
    · cases hs'; rw [hu] at hu'; cases hu'
    · cases hs'; rw [hu] at hu'; cases hu'
    · exact Nat.zero_le _
    · intro e he p n st h
      rw [h] at he
      exact absurd (List.mem_singleton.1 he) (by intro h; cases h)
  | woken hp hu =>
    rename_i s
    refine ⟨fun s' hs' => ?_, fun s' u hs' hu' => ?_, fun s' u hs' hu' => ?_, fun s' hs' => ?_, free ?_⟩
    · cases hs'; rw [hostOf_append]; rfl
    · cases hs'; rw [hu] at hu'; cases hu'
    · cases hs'; rw [hu] at hu'; cases hu'
    · rw [committedSince_append]; exact Nat.zero_le _
    · intro e he p n st h
      rw [h] at he
      simp at he
  | hosted hu ho =>
    rename_i s p u
    -- what was being uploaded was the host's, so it is gone
    have hnone : u = none := by
      rcases hu with hu | hu
      · exact hu
      · cases hx : s.upload with
        | none => rw [hu, hx]
        | some x => exact ho x hx (hi.upload s x rfl hx).1
    subst hnone
    refine ⟨fun s' hs' => ?_, fun s' u hs' hu' => ?_, fun s' u hs' hu' => ?_, fun s' hs' => ?_, free ?_⟩
    · cases hs'; rw [hostOf_append]; rfl
    · cases hs'; cases hu'
    · cases hs'; cases hu'
    · cases hs'; rw [committedSince_append]; exact hi.recent s rfl
    · intro e he q n st h
      rw [h] at he
      exact absurd (List.mem_singleton.1 he) (by intro h; cases h)
  | cleared s =>
    refine same (fun s' hs' => ?_) (by rw [List.append_nil]) (by rw [List.append_nil])
      (by rw [List.append_nil]; exact hi.law)
    cases hs'
    exact ⟨s, rfl, rfl, rfl, rfl, .inl rfl⟩
  | began =>
    rename_i s req size time
    refine ⟨fun s' hs' => ?_, fun s' u hs' hu => ?_, fun s' u hs' hu => ?_, fun s' hs' => ?_, free ?_⟩
    · cases hs'; rw [hostOf_append]; exact hi.host s rfl
    · cases hs'; cases hu
      exact ⟨rfl, rfl, rfl, Nat.zero_le _⟩
    · cases hs'; cases hu
      exact ⟨past, [], by rw [List.length_replicate]; rfl, hi.host s rfl, rfl⟩
    · cases hs'; rw [committedSince_append]; exact hi.recent s rfl
    · intro e he p n st h
      rw [h] at he
      exact absurd (List.mem_singleton.1 he) (by intro h; cases h)
  | uploaded hu hfit =>
    rename_i s u payload time
    have hw := Upload.write_spec time hfit
    obtain ⟨h₁, h₂, h₃, h₄⟩ := hi.upload s u rfl hu
    obtain ⟨pre, payloads, hpast, hhost, htake⟩ := hi.pending s u rfl hu
    refine ⟨fun s' hs' => ?_, fun s' x hs' hx => ?_, fun s' x hs' hx => ?_, fun s' hs' => ?_, free ?_⟩
    · cases hs'; rw [hostOf_append]; exact hi.host s rfl
    · cases hs'; cases hx
      refine ⟨h₁, h₂, h₃, ?_⟩
      rw [hw.1]
      exact hfit
    · cases hs'; cases hx
      refine ⟨pre, payloads ++ [payload], ?_, hhost, ?_⟩
      · rw [hw.1, hpast, List.map_append, List.append_assoc]
        rfl
      · rw [hw.2, htake, List.flatten_append, List.flatten_singleton]
    · cases hs'; rw [committedSince_append]; exact hi.recent s rfl
    · intro e he p n st h
      rw [h] at he
      exact absurd (List.mem_singleton.1 he) (by intro h; cases h)
  | committed hp hu hfull =>
    rename_i s u
    obtain ⟨h₁, h₂, h₃, -⟩ := hi.upload s u rfl hu
    obtain ⟨pre, payloads, hpast, hhost, htake⟩ := hi.pending s u rfl hu
    refine ⟨fun s' hs' => ?_, fun s' x hs' hx => ?_, fun s' x hs' hx => ?_, fun s' hs' => ?_, ?_⟩
    · cases hs'; rw [hostOf_append]; exact hi.host s rfl
    · cases hs'; cases hx
    · cases hs'; cases hx
    · cases hs'
      rw [committedSince_append]
      exact Nat.max_le.2 ⟨Nat.le_succ_of_le (hi.recent s rfl), Nat.le_refl _⟩
    · refine Ledger.snoc_iff.2 ⟨hi.law, ?_⟩
      intro p revision state he
      cases he
      refine ⟨⟨pre, u.id, u.generation, u.revision, payloads, ?_, ?_, ?_, ?_, ?_⟩, fun a q n st b ha hb => ?_⟩
      · rw [hpast, h₁]
      · rw [hhost, h₁]
      · rw [hi.host s rfl, h₂]
      · rw [h₃]
      · rw [← htake, hfull, List.take_length]
      · have hle : n ≤ committedSince past := by
          rw [ha, committedSince_append]
          exact le_committedSince (b := b) hb (Nat.le_max_right ..)
        exact Nat.lt_succ_of_le (hle.trans (hi.recent s rfl))

/-- Between two states of a room that did not wake in between, its world is what was committed. -/
def Session.Follows (id : String) (past : List Event) (o : Option Session) (es : List Event) (o' : Option Session) : Prop :=
  past ≠ [] → .woken id ∉ es → ∀ s', o' = some s' → ∃ s, o = some s ∧
    (s'.revision, s'.state) = es.foldl settle (s.revision, s.state)

theorem Session.Follows.trans {id : String} {past es es' : List Event} {o o' o'' : Option Session}
    (h : Follows id past o es o') (h' : Follows id (past ++ es) o' es' o'') : Follows id past o (es ++ es') o'' := by
  intro hpast hw s'' hs''
  rw [List.mem_append, not_or] at hw
  obtain ⟨s', hs', he'⟩ := h' (by simp [hpast]) hw.2 s'' hs''
  obtain ⟨s, hs, he⟩ := h hpast hw.1 s' hs'
  exact ⟨s, hs, by rw [he', he, List.foldl_append]⟩

theorem Session.Step.follows {id : String} {past es : List Event} {o o' : Option Session} (h : Step id past o es o') :
    Follows id past o es o' := by
  intro hpast hw s' hs'
  cases h with
  | quiet o => exact ⟨s', hs', rfl⟩
  | gone o hes => cases hs'
  | created hpast' hp hg hu => exact absurd hpast' hpast
  | woken hp hu => exact absurd (List.mem_cons_self ..) hw
  | _ => cases hs'; exact ⟨_, rfl, rfl⟩

/-- Each commit goes beyond all before it. -/
def Increases (id : String) (pre : List Event) (e : Event) : Prop :=
  ∀ p n st, e = .committed id p n st → ∀ q m st', .committed id q m st' ∈ pre → m < n

/-- No commit goes beyond the acknowledged world, and a room that is not persistent saw none. -/
structure Session.Ordered (a : Option Saved) (id : String) (o : Option Session) (past : List Event) : Prop where
  bound : ∀ q n st, .committed id q n st ∈ past → ∀ w, acknowledged a past = some w → n ≤ w.1
  young : ∀ s, o = some s → s.persistent = false → ∀ q n st, .committed id q n st ∉ past
  law : Ledger (Increases id) past

/-- **While a room's world is the acknowledged one, its commits go up.** -/
theorem Session.Step.ordered {a : Option Saved} {id : String} {past es : List Event} {o o' : Option Session}
    (h : Step id past o es o') (hi : Ordered a id o past)
    (hack : ∀ s, o = some s → acknowledged a past = if s.persistent = true then some (s.revision, s.state) else none) :
    Ordered a id o' (past ++ es) := by
  have free : (∀ e ∈ es, ∀ p n st, e ≠ .committed id p n st) → Ledger (Increases id) (past ++ es) := fun hes =>
    hi.law.append_free (fun e he pre p n st h => absurd h (hes e he p n st))
  -- nothing is acknowledged
  have same : ∀ {o' : Option Session}, (∀ e ∈ es, ∀ p n st, e ≠ .committed id p n st) →
      (acknowledged a (past ++ es) = acknowledged a past ∨ acknowledged a (past ++ es) = none) →
      (∀ s', o' = some s' → s'.persistent = false → past = [] ∨ ∃ s, o = some s ∧ s.persistent = false) →
      Ordered a id o' (past ++ es) := by
    intro o' hes hack' ho
    have old : ∀ {q n st}, .committed id q n st ∈ past ++ es → .committed id q n st ∈ past := by
      intro q n st hm
      rcases List.mem_append.1 hm with hm | hm
      · exact hm
      · exact absurd rfl (hes _ hm q n st)
    refine ⟨fun q n st hm w hw => ?_, fun s' hs' hp q n st hm => ?_, free hes⟩
    · rcases hack' with hack' | hack'
      · rw [hack'] at hw; exact hi.bound q n st (old hm) w hw
      · rw [hack'] at hw; cases hw
    · rcases ho s' hs' hp with hn | ⟨s, hs, hp'⟩
      · have hm' := old hm
        rw [hn] at hm'
        cases hm'
      · exact hi.young s hs hp' q n st (old hm)
  have one : ∀ {e : Event}, es = [e] → (∀ p n st, e ≠ .committed id p n st) → ∀ e' ∈ es, ∀ p n st, e' ≠ .committed id p n st := by
    rintro e rfl he e' he' p n st rfl
    exact he p n st (List.mem_singleton.1 he').symm
  cases h with
  | quiet o =>
    rw [List.append_nil]
    exact hi
  | cleared s => exact same (fun _ he => nomatch he) (.inl (by rw [List.append_nil])) (fun s' hs' hp => by
      cases hs'; exact .inr ⟨s, rfl, hp⟩)
  | gone o hes =>
    refine same (fun e he p n st h => by rw [hes e he] at h; cases h) ?_ (fun _ h => nomatch h)
    by_cases hn : es = []
    · exact .inl (by rw [hn, List.append_nil])
    · exact .inr (by rw [acknowledged_append, acknowledged_evicted hn hes])
  | created hpast hp hg hu =>
    exact same (one rfl (fun _ _ _ h => nomatch h)) (.inl (by rw [acknowledged_append]; rfl)) (fun _ _ _ => .inl hpast)
  | woken hp hu =>
    refine same (fun e he p n st h => ?_) (.inl (by rw [acknowledged_append]; rfl)) (fun s' hs' hp' => ?_)
    · rw [h] at he; simp at he
    · cases hs'; rw [hp] at hp'; cases hp'
  | hosted hu ho =>
    rename_i s p u
    exact same (one rfl (fun _ _ _ h => nomatch h)) (.inl (by rw [acknowledged_append]; rfl)) (fun s' hs' hp => by
      cases hs'; exact .inr ⟨s, rfl, hp⟩)
  | began =>
    rename_i s req size time
    exact same (one rfl (fun _ _ _ h => nomatch h)) (.inl (by rw [acknowledged_append]; rfl)) (fun s' hs' hp => by
      cases hs'; exact .inr ⟨s, rfl, hp⟩)
  | uploaded hu hfit =>
    rename_i s u payload time
    exact same (one rfl (fun _ _ _ h => nomatch h)) (.inl (by rw [acknowledged_append]; rfl)) (fun s' hs' hp => by
      cases hs'; exact .inr ⟨s, rfl, hp⟩)
  | started hp hu =>
    rename_i s
    -- before its start a room has no commits
    have hyoung := hi.young s rfl hp
    have hes := one (e := .started id) rfl (fun _ _ _ h => nomatch h)
    have old : ∀ {q n st}, .committed id q n st ∉ past ++ [.started id] := by
      intro q n st hm
      rcases List.mem_append.1 hm with hm | hm
      · exact hyoung q n st hm
      · exact hes _ hm q n st rfl
    exact ⟨fun q n st hm => absurd hm old, fun s' hs' hp' q n st => old, free hes⟩
  | committed hp hu hfull =>
    rename_i s u
    have hw := hack s rfl
    rw [if_pos hp] at hw
    refine ⟨fun q n st hm w hw' => ?_, fun s' hs' hp' => ?_, Ledger.snoc_iff.2 ⟨hi.law, fun p n st he q m st' hm => ?_⟩⟩
    · rw [acknowledged_append] at hw'
      cases hw'
      show n ≤ s.revision + 1
      rcases List.mem_append.1 hm with hm | hm
      · exact Nat.le_succ_of_le (hi.bound q n st hm _ hw)
      · cases List.mem_singleton.1 hm
        exact Nat.le_refl _
    · cases hs'
      rw [show s.persistent = false from hp'] at hp; cases hp
    · cases he
      exact Nat.lt_succ_of_le (hi.bound q m st' hm _ hw)

/-! Every turn is a step. -/

theorem Spared.events {shared : Prop} {id : String} {x y : Place} (h : Spared shared id x y) :
    ∃ es, y.past = x.past ++ es ∧ y.live = x.live ∧ (∀ e ∈ es, e = .evicted id) ∧ (es ≠ [] → x.live = none) := by
  cases h with
  | same => exact ⟨[], (List.append_nil _).symm, rfl, (fun _ he => nomatch he), fun h => absurd rfl h⟩
  | evicted hl hne hes hj => exact ⟨_, rfl, rfl, hes, fun _ => hl⟩
  | overwritten hs hl hes hj => exact ⟨_, rfl, rfl, hes, hl⟩

theorem Spared.session {shared : Prop} {id : String} {x y : Place} (h : Spared shared id x y) :
    ∃ es, y.past = x.past ++ es ∧
      Session.Step id x.past (x.live.map Room.session) es (y.live.map Room.session) := by
  obtain ⟨es, hpast, hl, hes, hnone⟩ := h.events
  refine ⟨es, hpast, ?_⟩
  rw [hl]
  by_cases hn : es = []
  · rw [hn]; exact .quiet _
  · rw [hnone hn]; exact .gone _ hes

theorem dropSeat_session (o : Option Room) (p : String) (d : Bool) :
    (dropSeat o p d).map Room.session = o.map Room.session := by
  unfold dropSeat
  split
  · rfl
  · rw [Option.map_map]; rfl

/-- What a departure leaves of a room's session. -/
theorem remains_session (r : Room) (p : String) (d : Bool) :
    (remains r p d).session = { r.session with
      upload := if r.upload.any (fun u => decide (u.owner = p)) then none else r.upload } := by
  have hd : (Server.departed r p d).session = { r.session with
      upload := if r.upload.any (fun u => decide (u.owner = p)) then none else r.upload } := by
    unfold Server.departed
    dsimp only
    split <;> split <;> rfl
  unfold remains
  split
  · exact hd
  · exact hd

theorem joined_session (r : Room) (p : String) :
    (Server.joined r p).session = if Server.hosts r then
      { r.session with owner := p, generation := r.generation + 1, upload := none } else r.session := by
  unfold Server.joined
  dsimp only
  split <;> rfl

theorem cleared_or_quiet {id : String} {past : List Event} (r : Session) {c : Prop} [Decidable c] :
    Session.Step id past (some r) [] (some { r with upload := if c then none else r.upload }) := by
  split
  · exact .cleared r
  · exact .quiet (some r)

theorem Leaves.session {shared : Prop} {id p : String} {d : Bool} {x y : Place} (h : Leaves shared id p d x y) :
    ∃ es, y.past = x.past ++ es ∧
      Session.Step id x.past (x.live.map Room.session) es (y.live.map Room.session) := by
  have live : ∀ {r}, dropSeat x.live p d = some r → x.live.map Room.session = some r.session := by
    intro r hr
    rw [← dropSeat_session x.live p d, hr]
    rfl
  cases h with
  | elsewhere h =>
    obtain ⟨es, hpast, hstep⟩ := h.session
    rw [dropSeat_session] at hstep
    exact ⟨es, hpast, hstep⟩
  | deleted hr he hp => exact ⟨[], (List.append_nil _).symm, .gone _ (fun _ he => nomatch he)⟩
  | slept hr he hp h =>
    obtain ⟨es, hpast, hl, hes, -⟩ := h.events
    refine ⟨es, hpast, ?_⟩
    rw [hl]
    exact .gone _ hes
  | kept hr he hp =>
    refine ⟨[], (List.append_nil _).symm, ?_⟩
    rw [live hr]
    show Session.Step id x.past _ [] (some (remains _ p d).session)
    rw [remains_session]
    exact cleared_or_quiet (Room.session _)
  | stayed hr hf =>
    rename_i r first
    refine ⟨_, rfl, ?_⟩
    rw [live hr]
    show Session.Step id x.past _ _ (some (handedOver (remains r p d) p first).session)
    have howner : (remains r p d).owner = r.owner := (remains_keeps r p d).2.1
    have hgen : (remains r p d).generation = r.generation := (remains_keeps r p d).2.2.1
    unfold handedOver
    rw [howner]
    have hs := remains_session r p d
    split
    · rename_i hp
      have hel : (Server.elected (remains r p d) first).session = { (remains r p d).session with
          owner := first, generation := r.generation + 1 } := by
        unfold Server.elected Room.session
        rw [hgen]
      rw [hel, hs]
      refine .hosted (s := r.session) ?_ (fun u hu ho => ?_)
      · split
        · exact .inl rfl
        · exact .inr rfl
      · rw [if_pos]
        rw [show r.upload = some u from hu]
        exact decide_eq_true (ho.trans hp)
    · rw [hs]
      exact cleared_or_quiet r.session

variable [Extern]

/-- **Every turn of a room is a step of the protocol.** -/
theorem Turn.session {w : World} {id : String} {a : Act} {x y : Place} (h : Turn w id a x y)
    (hid : ∀ r, x.live = some r → r.id = id) (hx : ∀ r, x.live = some r → r.Shaped) :
    ∃ es, y.past = x.past ++ es ∧
      Session.Step id x.past (x.live.map Room.session) es (y.live.map Room.session) := by
  -- one room, whose session stays
  have quiet : ∀ {r r' : Room}, x.live = some r → r'.session = r.session →
      Session.Step id x.past (x.live.map Room.session) [] (some r'.session) := by
    intro r r' hr he
    rw [hr, he]
    exact .quiet _
  cases h with
  | spared h => exact h.session
  | expired =>
    refine ⟨[], (List.append_nil _).symm, ?_⟩
    show Session.Step id x.past _ [] ((x.live.map _).map _)
    rw [Option.map_map]
    exact .quiet _
  | left ha h => exact h.session
  | created ha hlow hl hfile hpast hroom hmax hfit =>
    rename_i p name v pw game r max now binary
    have hs : (Server.joined r p).session = ⟨p, 0, false, 0, [], none⟩ := by rw [joined_session, hroom]; rfl
    refine ⟨_, rfl, ?_⟩
    show Session.Step id x.past _ _ (some (Server.joined r p).session)
    rw [hl, hpast, hs]
    exact .created (s := ⟨p, 0, false, 0, [], none⟩) rfl rfl rfl rfl
  | woken ha hl hfile hrid hlen hroom he =>
    rename_i p v pw hd st r now
    have hs : (Server.joined r p).session = ⟨p, r.generation + 1, true, r.revision, st, none⟩ := by
      rw [joined_session, hroom]; rfl
    have hes : Server.entryEvents (some r) r p = [.woken id, .hosted id p (r.generation + 1)] := by rw [hroom]; rfl
    refine ⟨_, rfl, ?_⟩
    show Session.Step id x.past _ _ (some (Server.joined r p).session)
    rw [hl, hes, hs]
    exact .woken (s := ⟨p, r.generation + 1, true, r.revision, st, none⟩) rfl rfl
  | joined ha hl he =>
    rename_i p v pw r
    refine ⟨_, rfl, ?_⟩
    rw [hl]
    show Session.Step id x.past (some r.session) ([] ++ _) (some (Server.joined r p).session)
    rw [joined_session, List.nil_append, hid r hl]
    split
    · exact .hosted (s := r.session) (.inl rfl) (fun _ _ _ => rfl)
    · exact .quiet _
  | refused => exact ⟨[], (List.append_nil _).symm, .gone _ (fun _ he => nomatch he)⟩
  | edited ha hl hrid hm hj he =>
    rename_i p v r r' es jobs jobs'
    refine ⟨es, rfl, ?_⟩
    cases he with
    | none => exact quiet hl rfl
    | settings ho hst hmax hsize hfit => exact quiet hl (by unfold joinClosed; split <;> rfl)
    | metadata ho hfit => exact quiet hl rfl
    | pushed ho => exact quiet hl rfl
    | started ho hst =>
      have h := hx r hl
      have hnone : r.upload = none := by
        cases hu : r.upload with
        | none => rfl
        | some u => rw [(h.game (h.upload (by rw [hu]; rfl))).1] at hst; cases hst
      -- nor is it persistent
      have hp : r.persistent = false := by
        cases hp : r.persistent with
        | false => rfl
        | true => rw [(h.game hp).1] at hst; cases hst
      rename_i enabled now
      have hs : (startedRoom enabled r (v.idx "data") now).session =
          { r.session with persistent := (startedRoom enabled r (v.idx "data") now).persistent } := rfl
      show Session.Step id x.past _ _ (some (startedRoom enabled r (v.idx "data") now).session)
      rw [hl, hrid, hs]
      split
      · rename_i hp'
        rw [hp']
        exact .started (s := r.session) hp hnone
      · rename_i hp'
        rw [eq_false_of_ne_true hp', ← hp]
        exact .quiet _
    | began hp ho hrev hgen hreq hsize =>
      rw [hl, hrid, ← ho]
      exact .began
    | commit hp ho hu hc =>
      rename_i u now
      simp only [committable, Bool.and_eq_true, decide_eq_true_eq] at hc
      rw [hl, hrid, ← ho]
      exact .committed (s := r.session) hp hu hc.2
  | wrote ha hl hrid hm hp hb hu hbid hst =>
    rename_i p b bid r u now
    refine ⟨_, rfl, ?_⟩
    simp only [staleChunk, Bool.or_eq_false_iff, decide_eq_false_iff_not, not_not] at hst
    simp only [uploadShaped, Bool.and_eq_true, decide_eq_true_eq] at hb
    rw [hl, hrid, ← hst.1.1.1.1.2]
    refine .uploaded (s := r.session) hu ?_
    rw [List.length_drop]
    omega
  | rejected ha hl hm hp hb hu hbid hst =>
    refine ⟨[], (List.append_nil _).symm, ?_⟩
    rw [hl]
    exact .cleared (Room.session _)
  | timedOut ha =>
    rename_i now
    refine ⟨[], (List.append_nil _).symm, ?_⟩
    cases hl : x.live with
    | none => exact .quiet _
    | some r =>
      show Session.Step id x.past (some r.session) [] (some (Server.timeoutUpload now r).session)
      unfold Server.timeoutUpload
      split
      · exact .cleared r.session
      · exact .quiet _
  | slept ha hl hp hact h =>
    obtain ⟨es, hpast, hl', hes, -⟩ := h.events
    refine ⟨es, hpast, ?_⟩
    rw [hl']
    exact .gone _ hes

namespace Server

/-- What every run keeps of a room. -/
structure Sound (id : String) (w : World) : Prop where
  seated : w.Seated
  shaped : ∀ r, w.rooms id = some r → r.Shaped
  sessions : Session.Inv id ((w.rooms id).map Room.session) (w.place id).past

theorem Sound.turn {id : String} {a : Act} {w w' : World} (h : Sound id w) (hk : w.Keyed) (hm : Move a w w') :
    Sound id w' ∧ ∃ es, (w'.place id).past = (w.place id).past ++ es ∧
      Session.Step id (w.place id).past ((w.rooms id).map Room.session) es ((w'.rooms id).map Room.session) := by
  have ht := hm.turn hk h.seated id
  obtain ⟨es, hes, hstep⟩ := ht.session (fun r hr => hk.rooms hr) h.shaped
  refine ⟨⟨hm.seated h.seated, ht.shaped h.shaped, ?_⟩, es, hes, hstep⟩
  rw [hes]
  exact hstep.inv h.sessions

omit [Extern] in
theorem boot_sound (config : Config) (store : Store) (push : Bool) (id : String) : Sound id (boot config store push).world :=
  ⟨boot_seated config store push, (fun _ h => nomatch h), ⟨(fun _ h => nomatch h), (fun _ _ h => nomatch h),
    (fun _ _ h => nomatch h), (fun _ h => nomatch h), Ledger.nil⟩⟩

theorem Sound.run {G : Env → Server → Command → Prop} {config : Config} {store : Store} {push : Bool} {s : Server}
    (h : Run G (boot config store push) s) (id : String) : Sound id s.world :=
  Run.invariant (I := Sound id) (fun _ _ _ _ _ _ _ _ hb hm hw => (hw.turn hb.keyed hm).1) h
    (boot_base config store push) (boot_sound config store push id)

/-- From one state of a run to another. -/
theorem Run.follows {G : Env → Server → Command → Prop} {config : Config} {s t : Server} (h : Run G s t)
    (hb : s.world.Base config) {id : String} (hs : Sound id s.world) :
    ∃ es, eventsOf id t.history = eventsOf id s.history ++ es ∧ Session.Follows id (eventsOf id s.history)
      ((s.rooms.get id).map Room.session) es ((t.rooms.get id).map Room.session) := by
  have := Run.invariant (I := fun w => Sound id w ∧ ∃ es, (w.place id).past = (s.world.place id).past ++ es ∧
    Session.Follows id (s.world.place id).past ((s.world.rooms id).map Room.session) es ((w.rooms id).map Room.session))
    (fun _ _ _ _ _ _ _ _ hb hm ⟨hw, es, hes, hf⟩ => ?_) h hb
    ⟨hs, [], (List.append_nil _).symm, fun _ _ s' hs' => ⟨s', hs', rfl⟩⟩
  · exact this.2
  · obtain ⟨hw', es', hes', hstep⟩ := hw.turn hb.keyed hm
    refine ⟨hw', es ++ es', by rw [hes', hes, List.append_assoc], hf.trans ?_⟩
    have := hstep.follows
    rw [hes] at this
    exact this

/-- **The step tries to enter this room on an account outside its roster.** -/
def Stranger (env : Env) (s : Server) (c : Command) (id : String) : Prop :=
  ∃ t cid txt p m v r, s.Executes env c t cid (.text txt) ∧ t.Valid txt v m ∧ t.Speaks cid p ∧
    v.idx "method" = .str "enterRoom" ∧ (v.idx "data").idx "roomId" = .str id ∧ t.rooms.get id = some r ∧ ¬ p ∈ r.players

omit [Extern] in
/-- An empty persistent room refuses nobody on its roster. -/
theorem entryError_member {r : Room} {p : String} {pw : Value} (h : r.Shaped) (hp : r.persistent = true)
    (ha : r.active.isEmpty = true) (hm : p ∈ r.players) : entryError r p pw = none := by
  obtain ⟨hs, hf, -⟩ := h.game hp
  have hsize : r.active.size = 0 := by
    rw [IndexSet.isEmpty, List.isEmpty_iff] at ha
    exact congrArg List.length ha
  have hrejoin : r.rejoin p = true := by
    unfold Room.rejoin
    rw [if_pos hf, IndexSet.contains_iff]
    exact hm
  unfold entryError
  rw [hs, hrejoin, hsize, if_neg (by simp), if_neg (by simp), if_neg (by simp)]
  exact if_neg (Nat.not_le_of_lt h.max)

theorem spares_of_members {env : Env} {s : Server} {c : Command} {id : String} {a : Act} {w : World}
    (hg : ¬ s.Stranger env c id) (hd : s.Does env c a w) (hs : Sound id w) : Spares id a w := by
  intro p v q r e ha hq hroom hmeth hrid hl hact hp he
  subst ha
  cases hd with
  | text hex hv hsp hread =>
    rename_i t cid txt m
    have hmem : p ∈ r.players := by
      by_contra hn
      exact hg ⟨t, cid, txt, p, m, v, r, hex, hv, hsp, hmeth, hrid, hl, hn⟩
    rw [entryError_member (hs.shaped r hl) hp hact hmem] at he
    cases he

/-- While only its members enter it, a room's commits go up, asleep or awake. -/
theorem members_ordered {config : Config} {store : Store} {push : Bool} {id : String} {s : Server} (hst : store.Filed)
    (h : Run (fun env s c => ¬ s.Stranger env c id) (boot config store push) s) : Safe store id s.world ∧
      (lowerText id = id → Session.Ordered ((store.rooms.get id).bind RoomFile.saved) id
        ((s.rooms.get id).map Room.session) (eventsOf id s.history)) := by
  have := Run.invariant (I := fun w => Sound id w ∧ Safe store id w ∧ (lowerText id = id →
      Session.Ordered ((store.rooms.get id).bind RoomFile.saved) id ((w.rooms id).map Room.session) (w.place id).past))
    (fun env s c a w w' hg hd hb hm ⟨hw, hsafe, ho⟩ => ?_) h (boot_base config store push)
    ⟨boot_sound config store push id, boot_safe config push hst id, fun _ =>
      ⟨(fun _ _ _ h => nomatch h), (fun _ h => nomatch h), Ledger.nil⟩⟩
  · exact this.2
  · obtain ⟨hw', es, hes, hstep⟩ := hw.turn hb.keyed hm
    refine ⟨hw', hsafe.move (fun _ => spares_of_members hg hd hw) hb.keyed hm, fun hid => ?_⟩
    rw [hes]
    refine hstep.ordered (ho hid) (fun x hx => ?_)
    obtain ⟨r, hr, rfl⟩ := Option.map_eq_some_iff.1 hx
    exact (hsafe.holds hid).live r hr

/-- **Session commits lose no update and publish no partial one.**  In every run: each commit is one whole upload over the
revision it began from, by the room's host under one generation, and goes beyond every commit since the room woke; the
host is the one the history tells; and while a room does not wake anew, its revision and state are those of its last
commit.  When only members enter the room, this holds across its sleep too: its world is the acknowledged one, and its
commits strictly increase. -/
theorem commits_lose_no_update {config : Config} {store : Store} {push : Bool} (id : String) :
    (∀ s, Run (fun _ _ _ => True) (boot config store push) s →
      Ledger (CommitLaw id) (eventsOf id s.history) ∧
      (∀ r, s.rooms.get id = some r → hostOf (eventsOf id s.history) = some (r.owner, r.generation)) ∧
      ∀ t, Run (fun _ _ _ => True) s t → ∀ r r', s.rooms.get id = some r → t.rooms.get id = some r' →
        ∃ es, eventsOf id t.history = eventsOf id s.history ++ es ∧
          (.woken id ∉ es → (r'.revision, r'.state) = es.foldl settle (r.revision, r.state))) ∧
    (store.Filed → ∀ s, Run (fun env s c => ¬ s.Stranger env c id) (boot config store push) s →
      Ledger (Increases id) (eventsOf id s.history) ∧
      ∀ r, s.rooms.get id = some r → r.persistent = true → s.acknowledged store id = some (r.revision, r.state)) := by
  refine ⟨fun s h => ?_, fun hst s h => ?_⟩
  · have hs := Sound.run h id
    have host : ∀ r, s.rooms.get id = some r → hostOf (eventsOf id s.history) = some (r.owner, r.generation) :=
      fun r hr => hs.sessions.host r.session (by rw [show s.world.rooms id = some r from hr]; rfl)
    refine ⟨hs.sessions.law, host, fun t ht r r' hr hr' => ?_⟩
    obtain ⟨es, hes, hf⟩ := ht.follows (Run.base h (boot_base config store push)) hs
    refine ⟨es, hes, fun hw => ?_⟩
    have hpast : eventsOf id s.history ≠ [] := fun hn => by
      have := host r hr
      rw [hn] at this; cases this
    obtain ⟨x, hx, he⟩ := hf hpast hw r'.session (by rw [hr']; rfl)
    rw [hr] at hx
    cases hx
    exact he
  · obtain ⟨hsafe, ho⟩ := members_ordered hst h
    have live : ∀ r, s.rooms.get id = some r → lowerText id = id := fun r hr => hsafe.filed.live hr
    refine ⟨?_, fun r hr hp => ?_⟩
    · by_cases hid : lowerText id = id
      · exact (ho hid).law
      · rw [eventsOf_eq_nil (fun e he hr => hid (by rw [← hr]; exact hsafe.filed.past he))]
        exact Ledger.nil
    · have := (hsafe.holds (live r hr)).live r hr
      rw [if_pos hp] at this
      exact this

theorem not_stranger {env : Env} {s : Server} {c : Command} (h : entersNoRoom c = true) (id : String) :
    ¬ s.Stranger env c id := by
  rintro ⟨t, cid, txt, p, m, v, r, hex, hv, -, hm, -⟩
  exact not_enters h hex hv hm

omit [Extern] in
theorem commits_lose_no_update_saved :
    letI := Extern.reading [Trace.signUp, Trace.createRoom, Trace.startGame, Trace.beginSession 1, Trace.commitSession]
    ∃ s, Run (fun env s c => ¬ s.Stranger env c Trace.room) (boot .default .empty false) s ∧
      eventsOf Trace.room s.history = [.created Trace.room Trace.account, .started Trace.room,
        .began Trace.room Trace.account Trace.request.text 0 0 1, .uploaded Trace.room Trace.account [7],
        .committed Trace.room Trace.account 1 [7]] ∧
      Ledger (CommitLaw Trace.room) (eventsOf Trace.room s.history) ∧
      Ledger (Increases Trace.room) (eventsOf Trace.room s.history) := by
  let _ := Extern.reading [Trace.signUp, Trace.createRoom, Trace.startGame, Trace.beginSession 1, Trace.commitSession]
  have h : (exec (fun _ _ c => entersNoRoom c) Trace.saved (boot .default .empty false)).any (fun s =>
      decide (eventsOf Trace.room s.history = [.created Trace.room Trace.account, .started Trace.room,
        .began Trace.room Trace.account Trace.request.text 0 0 1, .uploaded Trace.room Trace.account [7],
        .committed Trace.room Trace.account 1 [7]])) = true := by
    decide +kernel
  obtain ⟨s, hs, ha⟩ := (Option.any_eq_true _ _).1 h
  have hrun := exec_run (G := fun env s c => ¬ s.Stranger env c Trace.room) (fun _ _ _ h => not_stranger h _) hs
  have hlaw := @commits_lose_no_update _ .default .empty false Trace.room
  exact ⟨s, hrun, of_decide_eq_true ha, (hlaw.1 s (hrun.mono (fun _ _ _ _ => trivial))).1,
    (hlaw.2 empty_filed s hrun).1⟩

end Server
end Relay
