import GameRelay.Receive
/-!
# Redact — sensitive fields in the log (`diagnostics.rs`)

`redact` replaces what stands under a sensitive key, at any depth.  `SameOutside` compares two values everywhere but
there.  **Two values redact alike just when they are the same outside sensitive keys** (`redact_eq_iff`), so the log of a
frame says nothing about what stood there (`redaction_complete`).
-/
namespace Relay

namespace Diagnostics

/-- A key is sensitive when it contains one of these, in any letter case. -/
def sensitiveWords : List String := ["password", "passwd", "secret", "token", "authorization", "cookie", "apikey",
  "api_key", "api-key", "signingkey", "ticket"]

def sensitive (k : String) : Bool := sensitiveWords.any (fun s => decide (s.toList <:+: (lowerText k).toList))

def redacted : Value := .str "[REDACTED]"

mutual

def redact : Value → Value
  | .obj fields => .obj (redactFields fields)
  | .arr items => .arr (redactItems items)
  | .null => .null
  | .bool b => .bool b
  | .num n => .num n
  | .str s => .str s

def redactItems : List Value → List Value
  | [] => []
  | v :: vs => redact v :: redactItems vs

def redactFields : List (String × Value) → List (String × Value)
  | [] => []
  | (k, v) :: fs => (k, if sensitive k then redacted else redact v) :: redactFields fs

end

/-- The value stands in the other one, at any depth. -/
inductive Within : Value → Value → Prop
  | refl (v : Value) : Within v v
  | item {v w : Value} {items : List Value} (hw : w ∈ items) (h : Within v w) : Within v (.arr items)
  | field {v w : Value} {k : String} {fields : List (String × Value)} (hw : (k, w) ∈ fields) (h : Within v w) :
      Within v (.obj fields)

/-- Every sensitive key of the object has been redacted. -/
def Clean (fields : List (String × Value)) : Prop := ∀ f ∈ fields, sensitive f.1 = true → f.2 = redacted

theorem within_redacted {fields : List (String × Value)} : ¬ Within (.obj fields) redacted := fun h => nomatch h

mutual

/-- **No secret is left at any depth.** -/
theorem redact_clean : ∀ (v : Value) {fields : List (String × Value)}, Within (.obj fields) (redact v) → Clean fields
  | .obj fs, fields, h => by
    cases h with
    | refl =>
      rintro ⟨k, x⟩ hf hk
      exact (redactFields_clean fs hf).1 hk
    | field hw h => exact (redactFields_clean fs hw).2 h
  | .arr vs, fields, h => by
    cases h with
    | item hw h => exact redactItems_clean vs hw h
  | .null, fields, h => nomatch h
  | .bool _, fields, h => nomatch h
  | .num _, fields, h => nomatch h
  | .str _, fields, h => nomatch h

theorem redactItems_clean : ∀ (vs : List Value) {w : Value} {fields : List (String × Value)}, w ∈ redactItems vs →
    Within (.obj fields) w → Clean fields
  | [], _, _, hw, _ => nomatch hw
  | v :: vs, w, fields, hw, h => by
    rcases List.mem_cons.1 hw with rfl | hw
    · exact redact_clean v h
    · exact redactItems_clean vs hw h

theorem redactFields_clean : ∀ (fs : List (String × Value)) {k : String} {w : Value}, (k, w) ∈ redactFields fs →
    (sensitive k = true → w = redacted) ∧ ∀ {fields : List (String × Value)}, Within (.obj fields) w → Clean fields
  | [], _, _, hw => nomatch hw
  | (k', v) :: fs, k, w, hw => by
    rcases List.mem_cons.1 hw with he | hw
    · obtain ⟨rfl, rfl⟩ := Prod.mk.inj he
      split
      · exact ⟨fun _ => rfl, fun h => absurd h within_redacted⟩
      · rename_i hk
        exact ⟨fun h => absurd h hk, fun h => redact_clean v h⟩
    · exact redactFields_clean fs hw

end

mutual

/-- The values are the same, but for what stands under sensitive keys: same keys in the same order, arrays of the same
length, and the same values elsewhere. -/
def SameOutside : Value → Value → Prop
  | .null, .null => True
  | .bool a, .bool b => a = b
  | .num a, .num b => a = b
  | .str a, .str b => a = b
  | .arr a, .arr b => SameItems a b
  | .obj a, .obj b => SameFields a b
  | _, _ => False

def SameItems : List Value → List Value → Prop
  | [], [] => True
  | a :: as, b :: bs => SameOutside a b ∧ SameItems as bs
  | _, _ => False

def SameFields : List (String × Value) → List (String × Value) → Prop
  | [], [] => True
  | (k, a) :: as, (k', b) :: bs => k = k' ∧ (sensitive k = true ∨ SameOutside a b) ∧ SameFields as bs
  | _, _ => False

end

mutual

/-- **Two values redact alike just when they are the same outside sensitive keys.** -/
theorem redact_eq_iff : ∀ v w : Value, redact v = redact w ↔ SameOutside v w
  | .null, w => by cases w <;> simp [redact, SameOutside]
  | .bool a, w => by cases w <;> simp [redact, SameOutside]
  | .num a, w => by cases w <;> simp [redact, SameOutside]
  | .str a, w => by cases w <;> simp [redact, SameOutside]
  | .arr a, w => by
    cases w with
    | arr b => simp only [redact, SameOutside, Value.arr.injEq, redactItems_eq_iff a b]
    | _ => simp [redact, SameOutside]
  | .obj a, w => by
    cases w with
    | obj b => simp only [redact, SameOutside, Value.obj.injEq, redactFields_eq_iff a b]
    | _ => simp [redact, SameOutside]

theorem redactItems_eq_iff : ∀ a b : List Value, redactItems a = redactItems b ↔ SameItems a b
  | [], b => by cases b <;> simp [redactItems, SameItems]
  | a :: as, [] => by simp [redactItems, SameItems]
  | a :: as, b :: bs => by
    simp only [redactItems, SameItems, List.cons.injEq, redact_eq_iff a b, redactItems_eq_iff as bs]

theorem redactFields_eq_iff : ∀ a b : List (String × Value), redactFields a = redactFields b ↔ SameFields a b
  | [], b => by cases b <;> simp [redactFields, SameFields]
  | a :: as, [] => by simp [redactFields, SameFields]
  | (k, a) :: as, (k', b) :: bs => by
    simp only [redactFields, SameFields, List.cons.injEq, Prod.mk.injEq, redactFields_eq_iff as bs, and_assoc]
    refine and_congr_right (fun hk => and_congr_left (fun _ => ?_))
    subst hk
    split
    · rename_i hk
      simp only [hk, true_or]
    · rename_i hk
      rw [redact_eq_iff a b]
      exact ⟨.inr, fun h => h.resolve_left hk⟩

end

mutual

theorem redact_idem : ∀ v : Value, redact (redact v) = redact v
  | .null | .bool _ | .num _ | .str _ => rfl
  | .arr vs => congrArg Value.arr (redactItems_idem vs)
  | .obj fs => congrArg Value.obj (redactFields_idem fs)

theorem redactItems_idem : ∀ vs : List Value, redactItems (redactItems vs) = redactItems vs
  | [] => rfl
  | v :: vs => by simp only [redactItems, redact_idem v, redactItems_idem vs]

theorem redactFields_idem : ∀ fs : List (String × Value), redactFields (redactFields fs) = redactFields fs
  | [] => rfl
  | (k, v) :: fs => by
    simp only [redactFields, redactFields_idem fs]
    split
    · rfl
    · rw [redact_idem v]

end

variable [Extern]

/-- The details of the log entry of a frame; a text that does not parse is left out. -/
def frame (cid : Nat) (direction : String) (msg : Frame) : Value :=
  let (kind, payload) := match msg with
    | .text s => ("text", redact ((Extern.fromStr s).getD (.str "[omitted: invalid JSON]")))
    | .binary b => ("binary", .str (Extern.base64 b))
    | .ping b => ("ping", .str (Extern.base64 b))
    | .pong b => ("pong", .str (Extern.base64 b))
  .obj [("connectionId", .ofNat cid), ("direction", .str direction), ("type", .str kind), ("bytes", .ofNat msg.len),
    ("encoding", .str (if kind = "text" then "json" else "base64")), ("payload", payload)]

/-- **Redaction is complete and tells nothing**: no secret is left at any depth, all else is as it was, and what is logged
of a frame does not depend on the secrets in it. -/
theorem redaction_complete (v : Value) :
    (∀ fields, Within (.obj fields) (redact v) → ∀ f ∈ fields, sensitive f.1 = true → f.2 = redacted) ∧
      SameOutside v (redact v) ∧ redact (redact v) = redact v ∧ (∀ w, SameOutside v w → redact v = redact w) ∧
      ∀ w s s' cid direction, SameOutside v w → Extern.fromStr s = some v → Extern.fromStr s' = some w →
        (frame cid direction (.text s)).idx "payload" = (frame cid direction (.text s')).idx "payload" := by
  refine ⟨fun fields h => redact_clean v h, (redact_eq_iff v (redact v)).1 (redact_idem v).symm, redact_idem v,
    fun w h => (redact_eq_iff v w).2 h, fun w s s' cid direction h hs hs' => ?_⟩
  show redact ((Extern.fromStr s).getD _) = redact ((Extern.fromStr s').getD _)
  rw [hs, hs']
  exact (redact_eq_iff v w).2 h

/-- A token in a nested array. -/
example : redact (.obj [("nested", .arr [.obj [("accessToken", .str "private"), ("ok", .ofNat 7)]])]) =
    .obj [("nested", .arr [.obj [("accessToken", redacted), ("ok", .ofNat 7)]])] := by
  decide +kernel

end Diagnostics
end Relay
