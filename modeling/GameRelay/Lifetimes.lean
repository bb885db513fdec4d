import GameRelay.Tenures
import GameRelay.Policing
/-!
# Lifetimes — accounts are kept, and forgotten on time

`Tended` is a run with what its commands tell of accounts: when each was last left by its connection, and the password
each was first seen with.  `Aged` is what this says of memory and files, with one lemma for each way tenures change; hence
**accounts are kept as promised** (`accounts_are_kept`), whatever writes fail.
-/
namespace Relay

open Function (update)

/-- Each account file can be read and lies under its own identifier, as they are written. -/
def Store.Named (st : Store) : Prop :=
  ∀ {k o}, st.accounts.get k = some o →
    isUuid k = true ∧ lowerText k = k ∧ ∃ v pw, o = some v ∧ credentials v = some (k, pw)

/-- The password on file. -/
def Store.secret (st : Store) (k : String) : Option String :=
  ((st.accounts.get k).bind (fun o => o.bind credentials)).map Prod.snd

variable [Extern]

namespace Server

/-- A live game with a fixed roster lists the account. -/
def OnRoster (s : Server) (id : String) : Prop :=
  ∃ rid r, s.rooms.get rid = some r ∧ r.fixed = true ∧ id ∈ r.players

/-! Expiry. -/

section Expiry

variable {s : Server} {now : Nat}

omit [Extern] in
theorem isExpired_iff {p : Player} : s.isExpired now p = true ↔ p.connection = none ∧
    (∃ at', p.offline = some at' ∧ s.config.accountTtlMs ≤ now - at') ∧ ¬ s.OnRoster p.id := by
  unfold isExpired OnRoster
  rw [Bool.and_eq_true, Bool.and_eq_true, Option.isNone_iff_eq_none, Option.any_eq_true, Bool.not_eq_true',
    List.any_eq_false]
  constructor
  · rintro ⟨⟨hc, at', ha, ht⟩, hl⟩
    refine ⟨hc, ⟨at', ha, of_decide_eq_true ht⟩, fun ⟨rid, r, hr, hf, hp⟩ => ?_⟩
    refine hl r (IndexMap.mem_values.2 ⟨rid, hr⟩) ?_
    rw [hf, Bool.true_and, IndexSet.contains_iff]
    exact hp
  · rintro ⟨hc, ⟨at', ha, ht⟩, hl⟩
    refine ⟨⟨hc, at', ha, decide_eq_true ht⟩, fun r hr hp => ?_⟩
    rw [Bool.and_eq_true, IndexSet.contains_iff] at hp
    obtain ⟨rid, hr⟩ := IndexMap.mem_values.1 hr
    exact hl ⟨rid, r, hr, hp⟩

omit [Extern] in
theorem removeAccounts_get : ∀ (ids : List String) (s : Server) (x : String),
    (ids.foldl removeAccount s).players.get x = if x ∈ ids then none else s.players.get x
  | [], s, x => by rw [if_neg List.not_mem_nil]; rfl
  | id :: ids, s, x => by
    rw [List.foldl_cons, removeAccounts_get ids]
    show (if x ∈ ids then none else (s.players.shiftRemove id).get x) = _
    rw [IndexMap.get_shiftRemove]
    by_cases hx : x = id
    · rw [if_pos hx, ite_self, if_pos (hx ▸ List.mem_cons_self)]
    · rw [if_neg hx]
      by_cases hids : x ∈ ids
      · rw [if_pos hids, if_pos (List.mem_cons_of_mem _ hids)]
      · rw [if_neg hids, if_neg (fun h => (List.mem_cons.1 h).elim hx hids)]

omit [Extern] in
/-- **Expiry removes exactly the expired.** -/
theorem expire_get (hk : ∀ {id p}, s.players.get id = some p → p.id = id) (id : String) :
    (s.expire now).players.get id = (s.players.get id).filter (fun p => !s.isExpired now p) := by
  unfold expire
  rw [removeAccounts_get]
  have hmem : id ∈ (s.players.values.filter (s.isExpired now)).map (·.id) ↔
      ∃ p, s.players.get id = some p ∧ s.isExpired now p = true := by
    rw [List.mem_map]
    constructor
    · rintro ⟨p, hp, rfl⟩
      obtain ⟨hv, he⟩ := List.mem_filter.1 hp
      obtain ⟨k, hget⟩ := IndexMap.mem_values.1 hv
      exact ⟨p, (hk hget).symm ▸ hget, he⟩
    · rintro ⟨p, hp, he⟩
      exact ⟨p, List.mem_filter.2 ⟨IndexMap.mem_values.2 ⟨id, hp⟩, he⟩, hk hp⟩
  cases hp : s.players.get id with
  | none =>
    rw [ite_self]
    rfl
  | some p =>
    cases he : s.isExpired now p with
    | true =>
      rw [if_pos (hmem.2 ⟨p, hp, he⟩), Option.filter_some, he]
      rfl
    | false =>
      rw [if_neg, Option.filter_some, he]
      · rfl
      · intro h
        obtain ⟨p', hp', he'⟩ := hmem.1 h
        cases hp.symm.trans hp'
        rw [he] at he'
        cases he'

omit [Extern] in
theorem expire_config (s : Server) (now : Nat) : (s.expire now).config = s.config :=
  expire_field (f := fun s => s.config) (fun _ _ => rfl) s now

omit [Extern] in
theorem expire_drawn (s : Server) (now : Nat) : (s.expire now).drawn = s.drawn :=
  expire_field (f := fun s => s.drawn) (fun _ _ => rfl) s now

omit [Extern] in
theorem expire_onRoster (s : Server) (now : Nat) (id : String) : (s.expire now).OnRoster id ↔ s.OnRoster id := by
  have hterms : ∀ rid, ((s.expire now).rooms.get rid).map (fun r => (r.fixed, r.players)) =
      (s.rooms.get rid).map (fun r => (r.fixed, r.players)) := fun rid => by
    refine expire_field (f := fun s => (s.rooms.get rid).map (fun r => (r.fixed, r.players))) (fun s x => ?_) s now
    show ((s.rooms.mapVals (fun _ r => r.dropReservation x)).get rid).map _ = _
    rw [IndexMap.get_mapVals, Option.map_map]
    rfl
  have one : ∀ {a b : Server}, (∀ rid, (a.rooms.get rid).map (fun r => (r.fixed, r.players)) =
      (b.rooms.get rid).map (fun r => (r.fixed, r.players))) → a.OnRoster id → b.OnRoster id := by
    rintro a b h ⟨rid, r, hr, hf, hp⟩
    have := h rid
    rw [hr] at this
    obtain ⟨r', hr', heq⟩ := Option.map_eq_some_iff.1 this.symm
    obtain ⟨hfixed, hplayers⟩ := Prod.mk.inj heq
    exact ⟨rid, r', hr', hfixed.trans hf, hplayers ▸ hp⟩
  exact ⟨one hterms, one (fun rid => (hterms rid).symm)⟩

end Expiry

/-! What a run tells of accounts. -/

/-- When the account was last left by its connection, after the command. -/
def leftBy (env : Env) (s : Server) (left : String → Option Nat) : Command → String → Option Nat
  | .disconnect cid => fun id =>
    if (s.connections.get cid).bind (·.player) = some id ∧ s.connectionOf id = some cid then some env.now else left id
  | _ => left

/-- The password the account was first seen with. -/
def keysIn (t : Server) (keys : String → Option String) (id : String) : Option String :=
  (keys id).or ((t.players.get id).map (·.password))

/-- Accounts are as they were first seen, in memory and on file, and without a connection since they were left. -/
structure Aged (clock : Nat) (s : Server) (left : String → Option Nat) (keys : String → Option String) : Prop where
  memory : ∀ {id p}, s.players.get id = some p →
    p.id = id ∧ isUuid id = true ∧ lowerText id = id ∧ keys id = some p.password
  offline : ∀ {id p}, s.players.get id = some p → p.connection = none →
    p.offline = left id ∧ ∃ a, left id = some a ∧ a ≤ clock
  files : ∀ {k o}, s.store.accounts.get k = some o → isUuid k = true ∧ lowerText k = k ∧
    ∃ v pw, o = some v ∧ credentials v = some (k, pw) ∧ keys k = some pw
  known : ∀ {id pw}, keys id = some pw → id ∈ s.drawn ∨ ∃ o, s.store.accounts.get id = some o

namespace Aged

variable {clock : Nat} {s t : Server} {left : String → Option Nat} {keys : String → Option String}

omit [Extern] in
theorem later (h : s.Aged clock left keys) {clock' : Nat} (hle : clock ≤ clock') : s.Aged clock' left keys :=
  ⟨h.memory, fun hp hc => (h.offline hp hc).imp_right (fun ⟨a, ha, hb⟩ => ⟨a, ha, Nat.le_trans hb hle⟩), h.files,
    h.known⟩

omit [Extern] in
/-- What keeps tenures keeps accounts as they are. -/
theorem keeps (h : s.Aged clock left keys) (hk : s.Retains t) : t.Aged clock left keys := by
  have back : ∀ {id p'}, t.players.get id = some p' →
      ∃ p, s.players.get id = some p ∧ p.tenure = p'.tenure := fun {id p'} hp' => by
    have htenure : t.tenure id = some p'.tenure := by
      unfold Server.tenure
      rw [hp']
      rfl
    exact Option.map_eq_some_iff.1 ((hk.tenure id).symm.trans htenure)
  refine ⟨fun {id p'} hp' => ?_, fun {id p'} hp' hc => ?_, fun {k o} ho => ?_, fun {id pw} hpw => ?_⟩
  · obtain ⟨p, hp, he⟩ := back hp'
    obtain ⟨hid, hu, hl, hpw⟩ := h.memory hp
    exact ⟨(congrArg Tenure.id he).symm.trans hid, hu, hl,
      hpw.trans (congrArg (fun q : Tenure => some q.password) he)⟩
  · obtain ⟨p, hp, he⟩ := back hp'
    obtain ⟨hoff, hleft⟩ := h.offline hp ((congrArg Tenure.connection he).trans hc)
    exact ⟨(congrArg Tenure.offline he).symm.trans hoff, hleft⟩
  · rcases hk.files k with hsame | ⟨id, q, v, hq, hkey, hget, hv⟩
    · exact h.files (hsame.symm.trans ho)
    · obtain ⟨p, hp, he⟩ := Option.map_eq_some_iff.1 ((hk.tenure id).symm.trans hq)
      obtain ⟨hid, hu, hl, hpw⟩ := h.memory hp
      subst he
      change k = lowerText p.id at hkey
      change credentials v = some (p.id, p.password) at hv
      rw [hid] at hkey hv
      rw [hl] at hkey
      subst hkey
      cases hget.symm.trans ho
      exact ⟨hu, hl, v, p.password, rfl, hv, hpw⟩
  · rcases h.known hpw with hd | ⟨o, ho⟩
    · exact .inl (hk.drawn id hd)
    · rcases hk.files id with hsame | ⟨_, _, v, _, _, hget, _⟩
      · exact .inr ⟨o, hsame.trans ho⟩
      · exact .inr ⟨_, hget⟩

omit [Extern] in
theorem expire (h : s.Aged clock left keys) (now : Nat) : (s.expire now).Aged clock left keys := by
  have sub : ∀ {id p}, (s.expire now).players.get id = some p → s.players.get id = some p := fun {id p} hp => by
    rw [expire_get (fun h' => (h.memory h').1)] at hp
    exact (Option.filter_eq_some_iff.1 hp).1
  refine ⟨fun hp => h.memory (sub hp), fun hp => h.offline (sub hp), fun ho => ?_, fun hpw => ?_⟩
  · rw [expire_store] at ho
    exact h.files ho
  · rw [expire_store, expire_drawn]
    exact h.known hpw

omit [Extern] in
/-- An account is put in memory with a connection, under the password it has, or as a new one. -/
theorem seat (h : s.Aged clock left keys) {w : Server} {id : String} {b : Player} {keys' : String → Option String}
    (hw : ∀ x, w.players.get x = if x = id then some b else s.players.get x) (hstore : w.store = s.store)
    (hdrawn : ∀ x ∈ s.drawn, x ∈ w.drawn) (hb : b.id = id ∧ isUuid id = true ∧ lowerText id = id)
    (hconn : b.connection ≠ none) (hkey : keys' id = some b.password)
    (hsame : ∀ x, keys x ≠ none ∨ x ≠ id → keys' x = keys x)
    (hknown : id ∈ w.drawn ∨ ∃ o, s.store.accounts.get id = some o) : w.Aged clock left keys' := by
  refine ⟨fun {x p} hp => ?_, fun {x p} hp hc => ?_, fun {k o} ho => ?_, fun {x pw} hpw => ?_⟩
  · rw [hw] at hp
    split at hp
    · rename_i hx
      cases hp
      exact ⟨hx ▸ hb.1, hx ▸ hb.2.1, hx ▸ hb.2.2, hx ▸ hkey⟩
    · rename_i hx
      obtain ⟨hid, hu, hl, hpw⟩ := h.memory hp
      exact ⟨hid, hu, hl, (hsame x (.inr hx)).trans hpw⟩
  · rw [hw] at hp
    split at hp
    · cases hp
      exact absurd hc hconn
    · exact h.offline hp hc
  · rw [hstore] at ho
    obtain ⟨hu, hl, v, pw, hv, hcred, hpw⟩ := h.files ho
    exact ⟨hu, hl, v, pw, hv, hcred, (hsame k (.inl (by rw [hpw]; exact Option.some_ne_none _))).trans hpw⟩
  · rw [hstore]
    by_cases hx : x = id
    · exact hx ▸ hknown
    · rw [hsame x (.inr hx)] at hpw
      exact (h.known hpw).imp_left (hdrawn x)

omit [Extern] in
/-- What is known of accounts is what it was, or what memory shows. -/
theorem keysIn_eq {keys' : String → Option String} (h : t.Aged clock left keys')
    (hold : ∀ x, keys x ≠ none → keys' x = keys x)
    (hnew : ∀ x, keys' x ≠ none → keys x ≠ none ∨ ∃ p, t.players.get x = some p) :
    t.keysIn keys = keys' := by
  funext x
  unfold keysIn
  cases hx : keys x with
  | some pw =>
    rw [hold x (by rw [hx]; exact Option.some_ne_none _), hx]
    rfl
  | none =>
    rw [Option.none_or]
    cases hp : t.players.get x with
    | some p => exact (h.memory hp).2.2.2.symm
    | none =>
      cases hx' : keys' x with
      | none => rfl
      | some pw =>
        rcases hnew x (by rw [hx']; exact Option.some_ne_none _) with hne | ⟨p, hp'⟩
        · exact absurd hx hne
        · rw [hp] at hp'
          cases hp'

omit [Extern] in
theorem keysIn_self (h : t.Aged clock left keys) : t.keysIn keys = keys :=
  h.keysIn_eq (fun _ _ => rfl) (fun _ hx => .inl hx)

end Aged

/-! Authentication. -/

omit [Extern] in
theorem Retains.isSome {s t : Server} (h : s.Retains t) (id : String) :
    (t.players.get id).isSome = (s.players.get id).isSome := by
  have := congrArg Option.isSome (h.tenure id)
  unfold Server.tenure at this
  rwa [Option.isSome_map, Option.isSome_map] at this

theorem bind_retains {env : Env} {s : Server} {cid : Nat} {id : String} {p : Player} (hp : s.players.get id = some p)
    (created : Bool) : (s.bind env cid id created).All
      (Retains (s.setPlayer id { p with connection := some cid, offline := none, rtt := none })) := by
  unfold bind
  refine Out.all_unwrap (fun p' hp' => ?_)
  cases hp.symm.trans hp'
  dsimp only
  generalize ({ p with connection := some cid, offline := none, rtt := none } : Player) = b
  have hget : ∀ c, ((s.setPlayer id b).setConnection cid c).players.get id = some b :=
    fun _ => IndexMap.get_insert_self _ _ _
  refine Out.all_unwrap (fun c _ => ?_)
  have hset : (s.setPlayer id b).Retains ((s.setPlayer id b).setConnection cid { c with player := some id }) :=
    .same rfl rfl rfl (fun _ h => h)
  split
  · rename_i st hst
    exact hset.trans (.saved (hget _) hst)
  · rename_i st hst
    have hsave := hset.trans (.saved (hget _) hst)
    have hsent : ∀ {u : Server} (v : Value), Retains (s.setPlayer id b) u → Retains (s.setPlayer id b) (u.sendC cid v) :=
      fun v h => h.trans (.sent (sent_sendC _ cid v))
    split
    · refine hsent _ (hsent _ ?_)
      split
      · exact hsent _ hsave
      · exact hsave
    · refine hsent _ ?_
      split
      · exact hsent _ hsave
      · exact hsave

theorem replaceSession_same (s : Server) (p : Player) : (s.replaceSession p).players = s.players ∧
    (s.replaceSession p).store = s.store ∧ (s.replaceSession p).drawn = s.drawn := by
  unfold replaceSession
  split
  · rename_i old _
    have hcore := close_toCore s old 1008 "Session replaced"
    exact ⟨(congrArg Core.players hcore :), (congrArg Core.store hcore :), (congrArg Core.drawn hcore :)⟩
  · exact ⟨rfl, rfl, rfl⟩

/-- **Authentication ages nobody**: it makes an account in memory the connection's, under the password it has. -/
theorem auth_aged {env : Env} {s : Server} {clock : Nat} {left : String → Option Nat} {keys : String → Option String}
    (h : s.Aged clock left keys) (cid : Nat) (d : Value) :
    (s.auth env cid d).All (fun t => t.Aged clock left (t.keysIn keys) ∧
      ∀ id, ((s.expire env.now).players.get id).isSome = true → (t.players.get id).isSome = true) := by
  have he := h.expire env.now
  unfold auth
  dsimp only
  generalize s.expire env.now = e at he ⊢
  have quiet : ∀ {t : Server}, e.Retains t → t.Aged clock left (t.keysIn keys) ∧
      ∀ id, (e.players.get id).isSome = true → (t.players.get id).isSome = true := fun ht => by
    have haged := he.keeps ht
    exact ⟨haged.keysIn_self.symm ▸ haged, fun id hid => (ht.isSome id).trans hid⟩
  -- an account is bound: it has its connection, and all others are as they were
  have bound : ∀ {u w t : Server} {id : String} {b : Player} {keys' : String → Option String},
      u.Aged clock left keys →
      (∀ x, (e.players.get x).isSome = true → (u.players.get x).isSome = true) →
      (∀ x, w.players.get x = if x = id then some b else u.players.get x) → w.store = u.store →
      (∀ x ∈ u.drawn, x ∈ w.drawn) → (b.id = id ∧ isUuid id = true ∧ lowerText id = id) → b.connection ≠ none →
      keys' id = some b.password → (∀ x, keys x ≠ none ∨ x ≠ id → keys' x = keys x) →
      (id ∈ w.drawn ∨ ∃ o, u.store.accounts.get id = some o) → w.Retains t → t.Aged clock left (t.keysIn keys) ∧
        ∀ x, (e.players.get x).isSome = true → (t.players.get x).isSome = true := by
    intro u w t id b keys' hu hstay hw hstore hdrawn hb hconn hkey hsame hknown ht
    have haged := (hu.seat hw hstore hdrawn hb hconn hkey hsame hknown).keeps ht
    have hkeys : t.keysIn keys = keys' := by
      refine haged.keysIn_eq (fun x hx => hsame x (.inl hx)) (fun x hx => ?_)
      by_cases hxid : x = id
      · refine .inr (Option.isSome_iff_exists.1 ((ht.isSome x).trans ?_))
        rw [hw, if_pos hxid]
        rfl
      · rw [hsame x (.inr hxid)] at hx
        exact .inl hx
    refine ⟨hkeys.symm ▸ haged, fun x hx => ?_⟩
    rw [ht.isSome, hw]
    split
    · rfl
    · exact hstay x hx
  refine Out.all_ite (fun _ => Out.all_ite (fun _ => ?_) (fun _ => ?_)) (fun _ => ?_)
  · exact quiet (.sent ((sent_error e cid _).trans (sent_close _ cid _ _)))
  · unfold drawId
    dsimp only
    refine Out.all_ite (fun _ => trivial) (fun hfresh => ?_)
    have hu := UuidV4.isUuid_text (env.uuid e.draws)
    have hl : lowerText (env.uuid e.draws).text = (env.uuid e.draws).text := lowerText_uuidText _
    generalize (env.uuid e.draws).text = id at *
    -- nobody was known under the new identifier
    have hnone : keys id = none := by
      cases hk : keys id with
      | none => rfl
      | some pw =>
        refine absurd ?_ hfresh
        unfold Core.inUse
        rcases he.known hk with hd | ⟨o, ho⟩
        · simp [hd]
        · simp [IndexMap.contains, ho]
    generalize hpl : Player.new id (env.secret e.draws) _ env.now = pl
    have hpid : pl.id = id := by rw [← hpl]; rfl
    refine (bind_retains (p := pl) (IndexMap.get_insert_self _ _ _) true).mono (fun t ht => ?_)
    have hself : update keys id (some pl.password) id = some pl.password := Function.update_self ..
    have hothers : ∀ x, keys x ≠ none ∨ x ≠ id → update keys id (some pl.password) x = keys x := fun x hx => by
      refine Function.update_of_ne (fun hxid => ?_) _ _
      rcases hx with hx | hx
      · exact hx (hxid ▸ hnone)
      · exact hx hxid
    refine bound (b := { pl with connection := some cid, offline := none, rtt := none }) he (fun _ hx => hx)
      (fun x => ?_) ?_ ?_ ⟨hpid, hu, hl⟩ (Option.some_ne_none cid) hself hothers (.inl ?_) ht
    · show ((e.players.insert id pl).insert id _).get x = _
      rw [IndexMap.get_insert]
      split
      · rfl
      · exact IndexMap.get_insert_ne _ _ (by assumption)
    · rfl
    · exact fun x hx => List.mem_cons_of_mem _ hx
    · exact List.mem_cons_self
  · split
    · exact quiet (.refl e)
    · exact quiet (.sent (sent_authenticationFailed e cid))
    · rename_i p hret
      refine Out.all_ite (fun _ => quiet (.sent (sent_authenticationFailed e cid))) (fun _ => ?_)
      -- the account that comes back, from memory or from its file
      have hp : isUuid p.id = true ∧ lowerText p.id = p.id ∧ keys p.id = some p.password ∧
          (e.players.get p.id = some p ∨ p.room = none) := by
        unfold retainedAccount at hret
        split at hret
        · rename_i hmem
          cases hret
          obtain ⟨hid, hu, hl, hpw⟩ := he.memory hmem
          exact ⟨hid.symm ▸ hu, hid.symm ▸ hl, hid.symm ▸ hpw, .inl (hid.symm ▸ hmem)⟩
        · split at hret
          · unfold Store.account at hret
            split at hret
            · cases hret
            split at hret
            · cases hret
            split at hret
            · cases hret
            · cases hret
            rename_i v hv
            obtain ⟨hu, hl, v', pw, hvv, hcred, hpw⟩ := he.files hv
            cases hvv
            cases hret
            obtain ⟨i, hi, hpair⟩ := Option.map_eq_some_iff.1 hcred
            obtain ⟨rfl, hsec⟩ := Prod.mk.inj hpair
            generalize hpl : Store.accountPlayer v _ env.now = pl
            have hid : pl.id = lowerText (((d.idx "playerId").asStr).getD "") := by
              rw [← hpl]
              show ((v.idx "id").asStr).getD _ = _
              rw [hi]
              rfl
            have hpass : pl.password = pw := by rw [← hpl]; exact hsec
            rw [hid, hpass]
            exact ⟨hu, hl, hpw, .inr (by rw [← hpl]; rfl)⟩
          · cases hret
      obtain ⟨hu, hl, hpw, hplace⟩ := hp
      have rebound : ∀ {u s₀ : Server} {q : Player}, u.Aged clock left keys →
          (∀ x, (e.players.get x).isSome = true → (u.players.get x).isSome = true) →
          (∀ x, x ≠ p.id → s₀.players.get x = u.players.get x) → s₀.store = u.store → s₀.drawn = u.drawn →
          q.id = p.id → keys p.id = some q.password →
          (bind env ((s₀.replaceSession q).setPlayer p.id (renamed q d)) cid p.id false).All (fun t =>
            t.Aged clock left (t.keysIn keys) ∧
              ∀ x, (e.players.get x).isSome = true → (t.players.get x).isSome = true) := by
        intro u s₀ q hu' hstay hplayers hstore hdrawn hqid hqpw
        have hseat := renamed_seat q d
        have hsame := replaceSession_same s₀ q
        refine (bind_retains (p := renamed q d) (IndexMap.get_insert_self _ _ _) false).mono (fun t ht => ?_)
        have hkey := hqpw.trans (congrArg (fun q : Seat => some q.password) hseat.symm)
        refine bound (b := { renamed q d with connection := some cid, offline := none, rtt := none }) hu' hstay
          (fun x => ?_) ?_ (fun x hx => ?_) ⟨(congrArg Seat.id hseat).trans hqid, hu, hl⟩ (Option.some_ne_none cid)
          hkey (fun _ _ => rfl) ?_ ht
        · show (((s₀.replaceSession q).players.insert p.id (renamed q d)).insert p.id _).get x = _
          rw [IndexMap.get_insert]
          split
          · rfl
          · rename_i hx
            rw [IndexMap.get_insert_ne _ _ hx, hsame.1]
            exact hplayers x hx
        · exact hsame.2.1.trans hstore
        · show x ∈ (s₀.replaceSession q).drawn
          rw [hsame.2.2, hdrawn]
          exact hx
        · refine (hu'.known hqpw).imp_left (fun hd => ?_)
          show p.id ∈ (s₀.replaceSession q).drawn
          rw [hsame.2.2, hdrawn]
          exact hd
      unfold reconnect
      dsimp only
      generalize hs₀ : (if e.players.contains p.id then e else e.setPlayer p.id p) = s₀
      split
      · -- it leaves its game first, so it is in memory
        rename_i hfixed
        have hmem : e.players.get p.id = some p := by
          refine hplace.resolve_right (fun hroom => ?_)
          rw [hroom] at hfixed
          cases hfixed
        rw [if_pos (IndexMap.contains_iff.2 ⟨p, hmem⟩)] at hs₀
        subst hs₀
        refine Out.all_andThen (retains_leave env e p.id true) (fun v hv => ?_) (fun v hv => quiet hv)
        refine Out.all_unwrap (fun q hq => ?_)
        have hv' := he.keeps hv
        obtain ⟨hqid, -, -, hqpw⟩ := hv'.memory hq
        exact rebound hv' (fun x hx => (hv.isSome x).trans hx) (fun _ _ => rfl) rfl rfl hqid hqpw
      · refine rebound he (fun _ hx => hx) (fun x hx => ?_) ?_ ?_ rfl hpw
        all_goals rw [← hs₀]; split
        all_goals first | rfl | exact IndexMap.get_insert_ne _ _ hx

/-! Every command. -/

section Commands

variable {env : Env} {s t : Server} {clock : Nat} {left : String → Option Nat} {keys : String → Option String}

theorem disconnect_aged (h : s.Aged env.now left keys) (cid : Nat) :
    (s.disconnect env cid).All (fun t => t.Aged env.now (s.leftBy env left (.disconnect cid)) keys ∧
      ∀ id, (t.players.get id).isSome = (s.players.get id).isSome) := by
  -- whoever this does not leave is as before
  have spared : (∀ id p, s.players.get id = some p → (s.connections.get cid).bind (·.player) = some id →
      p.connection ≠ some cid) → s.Aged env.now (s.leftBy env left (.disconnect cid)) keys := fun hno => by
    refine ⟨h.memory, fun {id p} hp hc => ?_, h.files, h.known⟩
    have hleft : s.leftBy env left (.disconnect cid) id = left id := by
      refine if_neg (fun ⟨hb, hconn⟩ => hno id p hp hb ?_)
      rw [connectionOf, hp] at hconn
      exact hconn
    rw [hleft]
    exact h.offline hp hc
  unfold disconnect
  split
  · rename_i hn
    exact ⟨spared (fun id p _ hb => by rw [hn] at hb; cases hb), fun _ => rfl⟩
  rename_i c hc
  dsimp only
  generalize ht : ({ s with delayed := s.delayed.filter (fun d => decide (d.cid ≠ cid)),
                            connections := s.connections.shiftRemove cid } : Server) = u
  have hu : s.Retains u := by rw [← ht]; exact .same rfl rfl rfl (fun _ h => h)
  have hpl : u.players = s.players := by rw [← ht]
  have hbound : (s.connections.get cid).bind (·.player) = c.player := by rw [hc]; rfl
  have quiet : (∀ id p, s.players.get id = some p → (s.connections.get cid).bind (·.player) = some id →
      p.connection ≠ some cid) → u.Aged env.now (s.leftBy env left (.disconnect cid)) keys ∧
        ∀ id, (u.players.get id).isSome = (s.players.get id).isSome :=
    fun hno => ⟨(spared hno).keeps hu, fun id => hu.isSome id⟩
  split
  · rename_i hnone
    exact quiet (fun id p _ hb => by rw [hbound, hnone] at hb; cases hb)
  rename_i id hid
  split
  · rename_i hnone
    refine quiet (fun id' p hp hb => ?_)
    rw [hbound, hid] at hb
    cases hb
    rw [hp] at hnone
    cases hnone
  rename_i p hp
  split
  · rename_i hconn
    -- the account is left by its connection
    have hseat : (u.setPlayer id { p with connection := none, offline := some env.now }).Aged env.now
        (s.leftBy env left (.disconnect cid)) keys := by
      have hu' := h.keeps hu
      refine ⟨fun {x q} hq => ?_, fun {x q} hq hc' => ?_, hu'.files, hu'.known⟩
      · rw [Server.setPlayer, IndexMap.get_insert] at hq
        split at hq
        · rename_i hx
          cases hq
          have hmem := h.memory hp
          rw [hx]
          exact hmem
        · exact hu'.memory hq
      · rw [Server.setPlayer, IndexMap.get_insert] at hq
        split at hq
        · rename_i hx
          cases hq
          have hleft : s.leftBy env left (.disconnect cid) x = some env.now :=
            if_pos ⟨by rw [hbound, hid, hx], by rw [connectionOf, hx, hp]; exact hconn⟩
          rw [hleft]
          exact ⟨rfl, env.now, rfl, Nat.le_refl _⟩
        · rename_i hx
          have hleft : s.leftBy env left (.disconnect cid) x = left x :=
            if_neg (fun h' => hx (Option.some.inj ((h'.1.symm.trans hbound).trans hid)))
          rw [hleft]
          exact hu'.offline hq hc'
    have hsome : ∀ x, ((u.setPlayer id { p with connection := none, offline := some env.now }).players.get x).isSome =
        (s.players.get x).isSome := fun x => by
      rw [Server.setPlayer, IndexMap.get_insert, hpl]
      split
      · rename_i hx
        rw [hx, hp]
        rfl
      · rfl
    have hl := retains_leave env (u.setPlayer id { p with connection := none, offline := some env.now }) id true
    generalize leave env (u.setPlayer id { p with connection := none, offline := some env.now }) id true = o at hl
    cases o with
    | ok v => exact ⟨hseat.keeps hl, fun x => (Retains.isSome hl x).trans (hsome x)⟩
    | err v => exact ⟨hseat.keeps hl, fun x => (Retains.isSome hl x).trans (hsome x)⟩
    | halt _ => trivial
  · rename_i hconn
    refine quiet (fun id' p' hp' hb => ?_)
    rw [hbound, hid] at hb
    cases hb
    cases hp.symm.trans hp'
    exact hconn

/-- A frame keeps tenures, unless it authenticates. -/
theorem receive_tenures (env : Env) (s : Server) (cid : Nat) (frame : Frame) :
    (s.receive env cid frame).All (fun t => s.Retains t ∨ ∃ u d v, s.Authenticates env (.receive cid frame) u cid d ∧
      (u.auth env cid d).state = some v ∧ v.Retains t) := by
  have stay : ∀ {t : Server}, s.Retains t → s.Retains t ∨ ∃ u d v, s.Authenticates env (.receive cid frame) u cid d ∧
      (u.auth env cid d).state = some v ∧ v.Retains t := .inl
  unfold receive
  split
  · exact stay (.refl s)
  rename_i c hc
  split
  · exact stay (.refl s)
  rename_i hopen
  simp only [Bool.or_eq_true, Bool.not_eq_true', not_or, Bool.not_eq_true, Bool.not_eq_false] at hopen
  dsimp only
  have hcount : s.Retains (s.setConnection cid (countFrame c env.now)) := .same rfl rfl rfl (fun _ h => h)
  have hsent : ∀ {u : Server}, Sent (s.setConnection cid (countFrame c env.now)) u → s.Retains u :=
    fun h => hcount.trans (.sent h)
  have hsubmit : ∀ p (roomScoped immediate : Bool) (parsed : Option Value),
      ((s.setConnection cid (countFrame c env.now)).submit env cid p frame roomScoped immediate parsed).All s.Retains := by
    intro p roomScoped immediate parsed
    unfold submit
    refine Out.all_ite (fun _ => Out.all_unwrap (fun c' _ => ?_)) (fun _ => ?_)
    · refine Out.all_ite (fun _ => hsent (sent_close _ cid _ _)) (fun _ => Out.all_unwrap (fun player _ => ?_))
      exact hcount.trans (.same rfl rfl rfl (fun _ h => h))
    · exact (retains_dispatch env _ cid frame parsed).mono (fun u hu => hcount.trans hu)
  split
  · exact stay (hsent (sent_close _ cid _ _))
  rename_i hrate
  have ha : s.Accepts env cid c := ⟨hc, hopen.1, hopen.2, Nat.le_of_not_lt hrate⟩
  split
  · exact stay (hsent (sent_raw _ cid _))
  · exact stay hcount
  · rename_i txt
    split
    · exact stay (hsent (sent_close _ cid _ _))
    rename_i hsize
    unfold receiveText
    split
    · exact stay (hsent (sent_error _ cid _))
    rename_i v hparse
    split
    · exact stay (hsent (sent_error _ cid _))
    rename_i hvalid
    split
    · exact stay (hsent (sent_error _ cid _))
    rename_i hlen
    refine Out.all_unwrap (fun m hm => ?_)
    split
    · rename_i hp
      split
      · rename_i hauth
        have hv : s.Valid txt v "authenticate" := ⟨hparse, eq_true_of_ne_false hvalid, hauth ▸ hm⟩
        have hauths : s.Authenticates env (.receive cid (.text txt)) (s.setConnection cid (countFrame c env.now)) cid
            (v.idx "data") := .mk ha hp (Nat.le_of_not_lt hsize) hv (Nat.le_of_not_lt hlen)
        refine reportErr_all (P := fun w =>
          ((s.setConnection cid (countFrame c env.now)).auth env cid (v.idx "data")).state = some w)
          (Out.all_iff_state.2 (fun w hw => hw)) (fun w hw => .inr ⟨_, _, w, hauths, hw, .refl w⟩)
          (fun w hw => .inr ⟨_, _, w, hauths, hw, .sent (sent_error w cid _)⟩)
      · exact stay (hsent (sent_error _ cid _))
    · split
      · exact stay (hsent (sent_error _ cid _))
      · exact (hsubmit _ _ _ _).mono (fun _ h => stay h)
  · split
    · exact stay (hsent (sent_close _ cid _ _))
    · split
      · exact stay (hsent (sent_error _ cid _))
      · split
        · exact stay (hsent (sent_error _ cid _))
        · exact (hsubmit _ _ _ _).mono (fun _ h => stay h)

/-- The account's time is up: it was left too long ago, and no game lists it when accounts expire. -/
def Lapses (env : Env) (s : Server) (left : String → Option Nat) (c : Command) (t : Server) (id : String) : Prop :=
  (∃ a, left id = some a ∧ s.config.accountTtlMs ≤ env.now - a) ∧
    (c = .sweep ∧ ¬ t.OnRoster id ∨ (∃ u cid d, s.Authenticates env c u cid d) ∧ ¬ s.OnRoster id)

/-- **Each command keeps accounts as they are**, and removes only those whose time is up. -/
theorem Aged.step (h : s.Aged clock left keys) (hclock : clock ≤ env.now) {c : Command} (hconf : t.config = s.config)
    (hs : s.step env c = some t) : t.Aged env.now (s.leftBy env left c) (t.keysIn keys) ∧
      (∀ id p, s.players.get id = some p → t.players.get id = none → p.connection = none ∧ s.Lapses env left c t id) ∧
      (c = .sweep → ∀ id p, t.players.get id = some p → p.connection = none →
        (∃ a, left id = some a ∧ env.now - a < s.config.accountTtlMs) ∨ t.OnRoster id) := by
  have h := h.later hclock
  have gone : ∀ {id : String} {p : Player}, (t.players.get id).isSome = (s.players.get id).isSome →
      s.players.get id = some p → t.players.get id ≠ none := fun hsame hp hn => by
    rw [hn, hp] at hsame
    cases hsame
  -- who is removed by an expiry
  have expired : ∀ {u : Server}, s.Retains u → ∀ id p, s.players.get id = some p →
      (u.expire env.now).players.get id = none →
      p.connection = none ∧ (∃ a, left id = some a ∧ u.config.accountTtlMs ≤ env.now - a) ∧ ¬ u.OnRoster id := by
    intro u hu id p hp hn
    have hu' := h.keeps hu
    rw [expire_get (fun h' => (hu'.memory h').1)] at hn
    obtain ⟨q, hq⟩ := Option.isSome_iff_exists.1 ((hu.isSome id).trans (by rw [hp]; rfl))
    have htenure : q.tenure = p.tenure := by
      have := hu.tenure id
      unfold Server.tenure at this
      rw [hq, hp] at this
      exact Option.some.inj this
    rw [hq, Option.filter_some] at hn
    have hexp : u.isExpired env.now q = true := by
      cases he : u.isExpired env.now q with
      | true => rfl
      | false => rw [he] at hn; cases hn
    obtain ⟨hc, ⟨a, ha, hle⟩, hl⟩ := isExpired_iff.1 hexp
    rw [(hu'.memory hq).1] at hl
    exact ⟨(congrArg Tenure.connection htenure).symm.trans hc, ⟨a, (hu'.offline hq hc).1.symm.trans ha, hle⟩, hl⟩
  cases c with
  | connected x =>
    simp only [Server.step] at hs
    split at hs
    · cases hs
    cases hs
    have ht : s.Retains (s.connected env x) := .same rfl rfl rfl (fun _ h => h)
    have haged := h.keeps ht
    exact ⟨haged.keysIn_self.symm ▸ haged, fun id p hp hn => absurd hn (gone rfl hp), fun hc => by cases hc⟩
  | disconnect x =>
    obtain ⟨haged, hsome⟩ := Out.all_of_state (disconnect_aged h x) hs
    exact ⟨haged.keysIn_self.symm ▸ haged, fun id p hp hn => absurd hn (gone (hsome id) hp), fun hc => by cases hc⟩
  | sweep =>
    obtain ⟨u, hu, rfl⟩ := retains_sweep hs
    have hu' := h.keeps hu
    have haged := hu'.expire env.now
    have hcfg : u.config = s.config := (expire_config u env.now).symm.trans hconf
    refine ⟨haged.keysIn_self.symm ▸ haged, fun id p hp hn => ?_, fun _ id p hp hc => ?_⟩
    · obtain ⟨hc, ha, hl⟩ := expired hu id p hp hn
      exact ⟨hc, hcfg ▸ ha, .inl ⟨rfl, fun h' => hl ((expire_onRoster u env.now id).1 h')⟩⟩
    · rw [expire_get (fun h' => (hu'.memory h').1)] at hp
      obtain ⟨hp, hfresh⟩ := Option.filter_eq_some_iff.1 hp
      obtain ⟨hoff, a, ha, -⟩ := hu'.offline hp hc
      by_cases hl : (u.expire env.now).OnRoster id
      · exact .inr hl
      refine .inl ⟨a, ha, Nat.lt_of_not_le (fun hle => ?_)⟩
      have hexp : u.isExpired env.now p = true := by
        refine isExpired_iff.2 ⟨hc, ⟨a, hoff.trans ha, hcfg ▸ hle⟩,
          fun h' => hl ((expire_onRoster u env.now id).2 ?_)⟩
        rwa [(hu'.memory hp).1] at h'
      rw [hexp] at hfresh
      cases hfresh
  | receive x frame =>
    have hleft : s.leftBy env left (.receive x frame) = left := rfl
    rw [hleft]
    rcases Out.all_of_state (receive_tenures env s x frame) hs with ht | ⟨u, d, v, hauth, hv, ht⟩
    · have haged := h.keeps ht
      exact ⟨haged.keysIn_self.symm ▸ haged, fun id p hp hn => absurd hn (gone (ht.isSome id) hp),
        fun hc => by cases hc⟩
    · have hu : s.Retains u := by cases hauth; exact .same rfl rfl rfl (fun _ h => h)
      have hrooms : u.rooms = s.rooms ∧ u.config = s.config := by cases hauth; exact ⟨rfl, rfl⟩
      obtain ⟨haged, hstay⟩ := Out.all_of_state (auth_aged (h.keeps hu) x d) hv
      have hkeys : t.keysIn keys = v.keysIn keys := by
        funext id
        have htenure := congrArg (Option.map Tenure.password) (ht.tenure id)
        unfold Server.tenure at htenure
        rw [Option.map_map, Option.map_map] at htenure
        exact congrArg ((keys id).or) htenure
      refine ⟨hkeys ▸ haged.keeps ht, fun id p hp hn => ?_, fun hc => by cases hc⟩
      have hout : (u.expire env.now).players.get id = none := by
        cases hx : (u.expire env.now).players.get id with
        | none => rfl
        | some q =>
          have := (ht.isSome id).trans (hstay id (by rw [hx]; rfl))
          rw [hn] at this
          cases this
      obtain ⟨hc, ha, hl⟩ := expired hu id p hp hout
      refine ⟨hc, hrooms.2 ▸ ha, .inr ⟨⟨u, x, d, hauth⟩, fun h' => hl ?_⟩⟩
      obtain ⟨rid, r, hr, hm⟩ := h'
      exact ⟨rid, r, hrooms.1 ▸ hr, hm⟩

end Commands

omit [Extern] in
/-- **What is retained has the password it was first seen with**, and what is on file is retained. -/
theorem Aged.retained {s : Server} {clock : Nat} {left : String → Option Nat} {keys : String → Option String}
    (h : s.Aged clock left keys) (env : Env) :
    (∀ key p, s.retainedAccount env key = .ok (some p) → keys p.id = some p.password) ∧
    ∀ id o, s.store.enabled = true → s.store.accounts.get id = some o →
      ∃ p, s.retainedAccount env id = .ok (some p) ∧ p.id = id ∧ keys id = some p.password := by
  have filed : ∀ {key : String} {p : Player}, s.store.account key env.now = .ok (some p) →
      p.id = lowerText key ∧ keys p.id = some p.password := fun {key p} hp => by
    unfold Store.account at hp
    split at hp
    · cases hp
    split at hp
    · cases hp
    split at hp
    · cases hp
    · cases hp
    rename_i v hv
    obtain ⟨-, -, v', pw, hvv, hcred, hpw⟩ := h.files hv
    cases hvv
    cases hp
    obtain ⟨i, hi, hpair⟩ := Option.map_eq_some_iff.1 hcred
    obtain ⟨rfl, rfl⟩ := Prod.mk.inj hpair
    have hid : (Store.accountPlayer v key env.now).id = lowerText key := by
      show ((v.idx "id").asStr).getD key = _
      rw [hi]
      rfl
    rw [hid]
    exact ⟨rfl, hpw⟩
  refine ⟨fun key p hp => ?_, fun id o hen ho => ?_⟩
  · unfold retainedAccount at hp
    split at hp
    · rename_i hmem
      cases hp
      obtain ⟨hid, -, -, hpw⟩ := h.memory hmem
      exact hid.symm ▸ hpw
    · split at hp
      · exact (filed hp).2
      · cases hp
  · obtain ⟨hu, hl, v, pw, rfl, hcred, hpw⟩ := h.files ho
    cases hp : s.players.get id with
    | some p =>
      obtain ⟨hid, -, -, hpw'⟩ := h.memory hp
      exact ⟨p, by unfold retainedAccount; rw [hp], hid, hpw'⟩
    | none =>
      have hget : s.store.account id env.now = .ok (some (Store.accountPlayer v id env.now)) := by
        unfold Store.account
        rw [if_neg (by rw [hen]; decide), if_neg (by rw [hu]; decide), hl, ho]
      obtain ⟨hid, hpw'⟩ := filed hget
      rw [hl] at hid
      refine ⟨_, ?_, hid, hid ▸ hpw'⟩
      unfold retainedAccount
      rw [hp]
      dsimp only
      rw [if_pos hu, hget]

omit [Extern] in
/-- **Whoever gives the password an account was first seen with is let in**, while the account is there. -/
theorem Aged.welcomes {s : Server} {clock : Nat} {left : String → Option Nat} {keys : String → Option String}
    (h : s.Aged clock left keys) {env : Env} {d : Value} (hkey : keys (authKey d) = some (authPassword d))
    (hplace : (∃ p, s.players.get (authKey d) = some p) ∨
      s.store.enabled = true ∧ ∃ o, s.store.accounts.get (authKey d) = some o) : ¬ s.TurnsAway env d := by
  obtain ⟨hu, p, hp, hpw⟩ : isUuid (authKey d) = true ∧ ∃ p, s.retainedAccount env (authKey d) = .ok (some p) ∧
      keys (authKey d) = some p.password := by
    rcases hplace with ⟨p, hp⟩ | ⟨hen, o, ho⟩
    · obtain ⟨-, hu, -, hpw⟩ := h.memory hp
      exact ⟨hu, p, by unfold retainedAccount; rw [hp], hpw⟩
    · obtain ⟨p, hp, -, hpw⟩ := (h.retained env).2 _ o hen ho
      exact ⟨(h.files ho).1, p, hp, hpw⟩
  unfold TurnsAway
  rw [if_neg]
  · rintro (hnone | ⟨p', hp', hwrong⟩)
    · rw [hp] at hnone
      cases hnone
    · rw [hp] at hp'
      cases hp'
      exact hwrong (Option.some.inj (hpw.symm.trans hkey))
  · -- a key was given
    intro hanon
    have hid : d.idx "playerId" = .null := by
      unfold Value.idx
      rw [Option.isNone_iff_eq_none.1 (Bool.and_eq_true_iff.1 hanon).1]
      rfl
    unfold authKey at hu
    rw [hid] at hu
    exact absurd hu (by decide)

end Server

open Server

/-- A run at nondecreasing times, with when each account was last left and the password it was first seen with. -/
inductive Tended (b : Server) : Nat → Server → (String → Option Nat) → (String → Option String) → Prop
  | start (clock : Nat) : Tended b clock b (fun _ => none) b.store.secret
  | step {clock : Nat} {s t : Server} {left : String → Option Nat} {keys : String → Option String} {env : Env}
      {c : Command} (h : Tended b clock s left keys) (hclock : clock ≤ env.now) (hs : s.step env c = some t) :
      Tended b env.now t (s.leftBy env left c) (t.keysIn keys)

theorem Tended.run {b s : Server} {clock : Nat} {left : String → Option Nat} {keys : String → Option String}
    (h : Tended b clock s left keys) : Run (fun _ _ _ => True) b s := by
  induction h with
  | start => exact .refl
  | step _ _ hs ih => exact ih.tail ⟨_, _, trivial, hs⟩

namespace Server

omit [Extern] in
theorem boot_aged (config : Config) {store : Store} (push : Bool) (hst : store.Named) (clock : Nat) :
    (boot config store push).Aged clock (fun _ => none) store.secret := by
  have hsecret : ∀ {k v pw}, store.accounts.get k = some (some v) → credentials v = some (k, pw) →
      store.secret k = some pw := fun {k v pw} hv hc => by
      unfold Store.secret
      rw [hv]
      show (credentials v).map Prod.snd = some pw
      rw [hc]
      rfl
  refine ⟨(fun {id p} hp => by cases hp), (fun {id p} hp => by cases hp), fun {k o} ho => ?_,
    fun {id pw} hpw => .inr ?_⟩
  · obtain ⟨hu, hl, v, pw, rfl, hcred⟩ := hst ho
    exact ⟨hu, hl, v, pw, rfl, hcred, hsecret ho hcred⟩
  · obtain ⟨x, hx, -⟩ := Option.map_eq_some_iff.1 hpw
    obtain ⟨o, ho, -⟩ := Option.bind_eq_some_iff.1 hx
    exact ⟨o, ho⟩

/-- **All along a run accounts are as they were first seen.** -/
theorem Aged.run {config : Config} {store : Store} {push : Bool} (hst : store.Named) {clock : Nat} {s : Server}
    {left : String → Option Nat} {keys : String → Option String}
    (h : Tended (boot config store push) clock s left keys) :
    s.Aged clock left keys := by
  induction h with
  | start clock => exact boot_aged config push hst clock
  | step h hclock hs ih =>
    have hb := Run.base h.run (boot_base config store push)
    have hb' := Run.base (h.step hclock hs).run (boot_base config store push)
    exact (Aged.step ih hclock (hb'.config.trans hb.config.symm) hs).1

/-- **Accounts are kept as promised**, whatever writes fail.  In every run at times that do not go back, over account
files as a server writes them: an account's password is always the one it was first seen with, in memory and for whoever
comes back from file, and whoever gives it is not turned away while the account is in memory or on file.  An account is
removed from memory only when its connection left it `accountTtlMs` before and no live game with a fixed roster lists it;
and a sweep leaves none of these. -/
theorem accounts_are_kept {config : Config} {store : Store} {push : Bool} (hst : store.Named) {clock : Nat}
    {s : Server} {left : String → Option Nat} {keys : String → Option String}
    (h : Tended (boot config store push) clock s left keys) :
    s.store.Named ∧
    (∀ id p, s.players.get id = some p → p.id = id ∧ keys id = some p.password ∧
      (p.connection = none → p.offline = left id ∧ left id ≠ none)) ∧
    (∀ env key p, s.retainedAccount env key = .ok (some p) → keys p.id = some p.password) ∧
    (∀ env id o, s.store.enabled = true → s.store.accounts.get id = some o →
      ∃ p, s.retainedAccount env id = .ok (some p) ∧ p.id = id ∧ keys id = some p.password) ∧
    (∀ env c u cid d, s.Authenticates env c u cid d → keys (authKey d) = some (authPassword d) →
      (∃ p, (u.expire env.now).players.get (authKey d) = some p) ∨
        s.store.enabled = true ∧ (∃ o, s.store.accounts.get (authKey d) = some o) →
          ¬ (u.expire env.now).TurnsAway env d) ∧
    ∀ env c t, clock ≤ env.now → s.step env c = some t →
      (∀ id pw, keys id = some pw → t.keysIn keys id = some pw) ∧
      (∀ id p, s.players.get id = some p → t.players.get id = none → p.connection = none ∧ s.Lapses env left c t id) ∧
      (c = .sweep → ∀ id p, t.players.get id = some p → p.connection = none →
        (∃ a, left id = some a ∧ env.now - a < config.accountTtlMs) ∨ t.OnRoster id) := by
  have haged := Aged.run hst h
  have hb : s.world.Base config := Run.base h.run (boot_base config store push)
  have hconf : s.config = config := hb.config
  refine ⟨fun {k o} ho => ?_, fun id p hp => ?_, fun env => (haged.retained env).1, fun env => (haged.retained env).2,
    fun env c u cid d hauth hkey hplace => ?_, fun env c t hclock hs => ?_⟩
  · obtain ⟨hu, hl, v, pw, ho', hcred, -⟩ := haged.files ho
    exact ⟨hu, hl, v, pw, ho', hcred⟩
  · obtain ⟨hid, -, -, hpw⟩ := haged.memory hp
    refine ⟨hid, hpw, fun hc => ?_⟩
    obtain ⟨hoff, a, ha, -⟩ := haged.offline hp hc
    exact ⟨hoff, by rw [ha]; exact Option.some_ne_none a⟩
  · have hu : s.Retains u ∧ u.store = s.store := by cases hauth; exact ⟨.same rfl rfl rfl (fun _ h => h), rfl⟩
    refine ((haged.keeps hu.1).expire env.now).welcomes hkey ?_
    rw [expire_store, hu.2]
    exact hplace
  · have hb' : t.world.Base config := Run.base (h.step hclock hs).run (boot_base config store push)
    obtain ⟨-, hlapse, hswept⟩ := haged.step hclock (hb'.config.trans hb.config.symm) hs
    refine ⟨fun id pw hpw => by unfold keysIn; rw [hpw]; rfl, hlapse, fun hc id p hp hn => ?_⟩
    exact hconf ▸ hswept hc id p hp hn

/-- Commands executed one after the other, tended. -/
theorem tended_exec {b : Server} : ∀ {l : List (Env × Command)} {clock : Nat} {s t : Server}
    {left : String → Option Nat} {keys : String → Option String}, Tended b clock s left keys →
    (clock :: l.map (·.1.now)).Pairwise (· ≤ ·) →
    exec (fun _ _ _ => true) l s = some t →
    ∃ last left' keys', last ∈ clock :: l.map (·.1.now) ∧ Tended b last t left' keys'
  | [], clock, s, t, left, keys, h, _, he => by
    cases he
    exact ⟨clock, left, keys, List.mem_cons_self, h⟩
  | (env, c) :: l, clock, s, t, left, keys, h, hp, he => by
    rw [Server.exec, if_pos rfl] at he
    obtain ⟨u, hu, he⟩ := Option.bind_eq_some_iff.1 he
    obtain ⟨hfirst, hrest⟩ := List.pairwise_cons.1 hp
    obtain ⟨last, left', keys', hlast, ht⟩ := tended_exec (h.step (hfirst env.now List.mem_cons_self) hu) hrest he
    exact ⟨last, left', keys', List.mem_cons_of_mem _ hlast, ht⟩

end Server

namespace Trace

/-- An account signs up, and its connection ends. -/
def parted : List (Env × Command) := [(.plain 1, .connected 1), (.plain 1, .tells 1 signUp), (.plain 2, .disconnect 1)]

end Trace

namespace Server

omit [Extern] in
/-- Left at 2, the account is still there after a sweep at 300001. -/
theorem accounts_are_kept_parted :
    letI := Extern.reading [Trace.signUp]
    Store.empty.Named ∧ ∃ clock s left keys t id, Tended (boot .default .empty false) clock s left keys ∧
      left id = some 2 ∧ s.step (Env.plain 300001) .sweep = some t ∧ t.players.get id ≠ none := by
  let _ := Extern.reading [Trace.signUp]
  have hnamed : Store.empty.Named := fun {k o} ho => by cases ho
  have h : (exec (fun _ _ _ => true) Trace.parted (boot .default .empty false)).any (fun s =>
      (s.players.get (UuidV4.numbered 0).text).any (fun p => decide (p.connection = none ∧ p.offline = some 2)) &&
      decide (s.config.accountTtlMs = 300000) && (s.step (Env.plain 300001) .sweep).isSome) = true := by
    decide +kernel
  obtain ⟨s, hs, h⟩ := (Option.any_eq_true _ _).1 h
  obtain ⟨h, ht⟩ := Bool.and_eq_true_iff.1 h
  obtain ⟨hp, httl⟩ := Bool.and_eq_true_iff.1 h
  obtain ⟨p, hp, hoff⟩ := (Option.any_eq_true _ _).1 hp
  obtain ⟨hconn, hoff⟩ := of_decide_eq_true hoff
  obtain ⟨t, ht⟩ := Option.isSome_iff_exists.1 ht
  obtain ⟨last, left, keys, hlast, htended⟩ := tended_exec (.start 0) (by decide) hs
  have hlast : last ≤ 300001 := by
    have : ∀ x ∈ 0 :: Trace.parted.map (·.1.now), x ≤ 300001 := by decide
    exact this last hlast
  obtain ⟨-, hmem, -, -, -, hstep⟩ := accounts_are_kept hnamed htended
  have hleft : left (UuidV4.numbered 0).text = some 2 := ((hmem _ p hp).2.2 hconn).1.symm.trans hoff
  refine ⟨hnamed, last, s, left, keys, t, _, htended, hleft, ht, fun hgone => ?_⟩
  obtain ⟨-, ⟨a, ha, hle⟩, -⟩ := (hstep (Env.plain 300001) .sweep t hlast ht).2.1 _ p hp hgone
  cases hleft.symm.trans ha
  rw [of_decide_eq_true httl] at hle
  exact absurd hle (by decide)

end Server
end Relay
