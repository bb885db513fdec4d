import Mathlib
/-!
# Json — JSON values and their text

`Value` is the tree a JSON library hands out: numbers are an unsigned, a negative or a binary floating number, and an
object is its fields in order.  `text` is the compact text of a value, over a spelling `num` of numbers, and `textSize`
its length in UTF-8 bytes, by recursion on the value (`utf8ByteSize_text`).
-/
namespace Relay

/-- A number as parsed: `pos n` is `n`, `neg n` is `-n`, `float m e` is `m * 2 ^ e`. -/
inductive Number where
  | pos (n : Nat)
  | neg (n : Nat)
  | float (mantissa exponent : Int)
  deriving DecidableEq

inductive Value where
  | null
  | bool (b : Bool)
  | num (n : Number)
  | str (s : String)
  | arr (items : List Value)
  | obj (fields : List (String × Value))

namespace Value

mutual

def beq : Value → Value → Bool
  | null, null => true
  | bool a, bool b => decide (a = b)
  | num a, num b => decide (a = b)
  | str a, str b => decide (a = b)
  | arr a, arr b => beqItems a b
  | obj a, obj b => beqFields a b
  | _, _ => false

def beqItems : List Value → List Value → Bool
  | [], [] => true
  | a :: as, b :: bs => beq a b && beqItems as bs
  | _, _ => false

def beqFields : List (String × Value) → List (String × Value) → Bool
  | [], [] => true
  | (k, a) :: as, (k', b) :: bs => decide (k = k') && beq a b && beqFields as bs
  | _, _ => false

end

mutual

theorem beq_iff : ∀ a b : Value, beq a b = true ↔ a = b
  | null, b => by cases b <;> simp [beq]
  | bool a, b => by cases b <;> simp [beq]
  | num a, b => by cases b <;> simp [beq]
  | str a, b => by cases b <;> simp [beq]
  | arr a, b => by
    cases b with
    | arr b => simp [beq, beqItems_iff a b]
    | _ => simp [beq]
  | obj a, b => by
    cases b with
    | obj b => simp [beq, beqFields_iff a b]
    | _ => simp [beq]

theorem beqItems_iff : ∀ a b : List Value, beqItems a b = true ↔ a = b
  | [], b => by cases b <;> simp [beqItems]
  | a :: as, [] => by simp [beqItems]
  | a :: as, b :: bs => by simp [beqItems, beq_iff a b, beqItems_iff as bs]

theorem beqFields_iff : ∀ a b : List (String × Value), beqFields a b = true ↔ a = b
  | [], b => by cases b <;> simp [beqFields]
  | (k, a) :: as, [] => by simp [beqFields]
  | (k, a) :: as, (k', b) :: bs => by simp [beqFields, beq_iff a b, beqFields_iff as bs, and_assoc]

end

instance : DecidableEq Value := fun a b => decidable_of_iff _ (beq_iff a b)

/-- The field of an object, the first of that name. -/
def get : Value → String → Option Value
  | obj fields, k => (fields.find? (fun f => decide (f.1 = k))).map Prod.snd
  | _, _ => none

/-- The field of an object, `null` when there is none. -/
def idx (v : Value) (k : String) : Value := (v.get k).getD null

/-- The item of an array, `null` when there is none. -/
def item : Value → Nat → Value
  | arr items, i => (items[i]?).getD null
  | _, _ => null

def asStr : Value → Option String
  | str s => some s
  | _ => none

def asU64 : Value → Option Nat
  | num (.pos n) => some n
  | _ => none

def asBool : Value → Option Bool
  | bool b => some b
  | _ => none

def asArray : Value → Option (List Value)
  | arr items => some items
  | _ => none

def isNull : Value → Bool
  | null => true
  | _ => false

def isObject : Value → Bool
  | obj _ => true
  | _ => false

def isNumber : Value → Bool
  | num _ => true
  | _ => false

def isBoolean : Value → Bool
  | bool _ => true
  | _ => false

def ofNat (n : Nat) : Value := num (.pos n)

/-- An optional number, `null` when absent. -/
def ofOption : Option Nat → Value
  | none => null
  | some n => ofNat n

def strs (l : List String) : Value := arr (l.map str)

theorem asStr_eq_some {v : Value} {s : String} : v.asStr = some s ↔ v = str s := by
  cases v <;> simp [asStr]

theorem asU64_eq_some {v : Value} {n : Nat} : v.asU64 = some n ↔ v = ofNat n := by
  unfold asU64 ofNat
  split
  · simp
  · rename_i h
    exact ⟨(fun h' => nomatch h'), fun h' => absurd h' (h n)⟩

def setFields (k : String) (x : Value) : List (String × Value) → List (String × Value)
  | [] => [(k, x)]
  | f :: l => if f.1 = k then (k, x) :: l else f :: setFields k x l

/-- Assign a field of an object: in place, or appended. -/
def set : Value → String → Value → Value
  | obj fields, k, x => obj (setFields k x fields)
  | v, _, _ => v

theorem get_setFields (k x : String) (w : Value) (l : List (String × Value)) :
    ((setFields k w l).find? (fun f => decide (f.1 = x))).map Prod.snd =
      if x = k then some w else (l.find? (fun f => decide (f.1 = x))).map Prod.snd := by
  induction l with
  | nil => by_cases h : x = k <;> simp [setFields, h, eq_comm]
  | cons f l ih =>
    unfold setFields
    by_cases hf : f.1 = k
    · by_cases h : x = k
      · simp [hf, h]
      · have hkx : ¬ k = x := fun he => h he.symm
        simp [hf, h, hkx]
    · rw [if_neg hf, List.find?_cons, List.find?_cons]
      by_cases hx : f.1 = x
      · have hxk : ¬ x = k := fun he => hf (hx.trans he)
        simp [hx, hxk]
      · simp only [hx, decide_false]; exact ih

theorem get_set_obj (fields : List (String × Value)) (k x : String) (w : Value) :
    ((obj fields).set k w).get x = if x = k then some w else (obj fields).get x := get_setFields k x w fields

theorem idx_set {v : Value} (hv : v.isObject = true) (k x : String) (w : Value) :
    (v.set k w).idx x = if x = k then w else v.idx x := by
  cases v with
  | obj fields =>
    unfold idx
    rw [get_set_obj]
    split <;> rfl
  | _ => cases hv

theorem isObject_set {v : Value} (hv : v.isObject = true) (k : String) (w : Value) :
    (v.set k w).isObject = true := by
  cases v with
  | obj fields => rfl
  | _ => cases hv

/-- Assigning one field leaves the others. -/
theorem idx_set_ne {v w : Value} {k x : String} (h : x ≠ k) : (v.set k w).idx x = v.idx x := by
  cases v with
  | obj fields => exact (idx_set rfl k x w).trans (if_neg h)
  | _ => rfl

end Value

namespace Json

/-- How one character stands inside a JSON string. -/
def escapeChar (c : Char) : String :=
  if c = '"' then "\\\""
  else if c = '\\' then "\\\\"
  else if c.toNat = 8 then "\\b"
  else if c.toNat = 9 then "\\t"
  else if c.toNat = 10 then "\\n"
  else if c.toNat = 12 then "\\f"
  else if c.toNat = 13 then "\\r"
  else if c.toNat < 16 then "\\u000" ++ String.singleton (Nat.digitChar c.toNat)
  else if c.toNat < 32 then "\\u001" ++ String.singleton (Nat.digitChar (c.toNat - 16))
  else String.singleton c

def escape : List Char → String
  | [] => ""
  | c :: cs => escapeChar c ++ escape cs

def quote (s : String) : String := "\"" ++ escape s.toList ++ "\""

def escapeSize : List Char → Nat
  | [] => 0
  | c :: cs => (escapeChar c).utf8ByteSize + escapeSize cs

def quoteSize (s : String) : Nat := escapeSize s.toList + 2

theorem utf8ByteSize_escape : ∀ cs : List Char, (escape cs).utf8ByteSize = escapeSize cs
  | [] => rfl
  | c :: cs => by rw [escape, String.utf8ByteSize_append, utf8ByteSize_escape cs]; rfl

theorem utf8ByteSize_quote (s : String) : (quote s).utf8ByteSize = quoteSize s := by
  simp only [quote, String.utf8ByteSize_append, utf8ByteSize_escape, quoteSize]
  show 1 + _ + 1 = _
  omega

/-- A character of an identifier is one byte of JSON. -/
theorem escapeChar_plain {c : Char} (hlo : 45 ≤ c.toNat) (hhi : c.toNat ≤ 122) (hne : c.toNat ≠ 92) :
    (escapeChar c).utf8ByteSize = 1 := by
  unfold escapeChar
  rw [if_neg (fun he => by rw [he] at hlo; revert hlo; decide), if_neg (fun he => hne (by rw [he]; decide)),
    if_neg (by omega), if_neg (by omega), if_neg (by omega), if_neg (by omega), if_neg (by omega), if_neg (by omega),
    if_neg (by omega), String.utf8ByteSize_singleton]
  unfold Char.utf8Size
  rw [if_pos]
  exact UInt32.le_iff_toNat_le.2 (Nat.le_trans hhi (by decide))

theorem escapeSize_plain : ∀ {cs : List Char}, (∀ c ∈ cs, (escapeChar c).utf8ByteSize = 1) → escapeSize cs = cs.length
  | [], _ => rfl
  | c :: cs, h => by
    rw [escapeSize, h c List.mem_cons_self, escapeSize_plain (fun x hx => h x (List.mem_cons_of_mem _ hx)),
      List.length_cons, Nat.add_comm]

variable (num : Number → String)

mutual

/-- The compact text of a value. -/
def text : Value → String
  | .null => "null"
  | .bool true => "true"
  | .bool false => "false"
  | .num n => num n
  | .str s => quote s
  | .arr items => "[" ++ itemsText items ++ "]"
  | .obj fields => "\x7b" ++ fieldsText fields ++ "\x7d"

def itemsText : List Value → String
  | [] => ""
  | [v] => text v
  | v :: w :: vs => text v ++ "," ++ itemsText (w :: vs)

def fieldsText : List (String × Value) → String
  | [] => ""
  | [(k, v)] => quote k ++ ":" ++ text v
  | (k, v) :: g :: fs => quote k ++ ":" ++ text v ++ "," ++ fieldsText (g :: fs)

end

mutual

def textSize : Value → Nat
  | .null => 4
  | .bool true => 4
  | .bool false => 5
  | .num n => (num n).utf8ByteSize
  | .str s => quoteSize s
  | .arr items => itemsSize items + 2
  | .obj fields => fieldsSize fields + 2

def itemsSize : List Value → Nat
  | [] => 0
  | [v] => textSize v
  | v :: w :: vs => textSize v + 1 + itemsSize (w :: vs)

def fieldsSize : List (String × Value) → Nat
  | [] => 0
  | [(k, v)] => quoteSize k + 1 + textSize v
  | (k, v) :: g :: fs => quoteSize k + 1 + textSize v + 1 + fieldsSize (g :: fs)

end

mutual

/-- **The length of the text is the recursive size.** -/
theorem utf8ByteSize_text : ∀ v : Value, (text num v).utf8ByteSize = textSize num v
  | .null => rfl
  | .bool true => rfl
  | .bool false => rfl
  | .num n => rfl
  | .str s => utf8ByteSize_quote s
  | .arr items => by
    simp only [text, textSize, String.utf8ByteSize_append, utf8ByteSize_itemsText items]
    show 1 + _ + 1 = _; omega
  | .obj fields => by
    simp only [text, textSize, String.utf8ByteSize_append, utf8ByteSize_fieldsText fields]
    show 1 + _ + 1 = _; omega

theorem utf8ByteSize_itemsText : ∀ l : List Value, (itemsText num l).utf8ByteSize = itemsSize num l
  | [] => rfl
  | [v] => utf8ByteSize_text v
  | v :: w :: vs => by
    simp only [itemsText, itemsSize, String.utf8ByteSize_append, utf8ByteSize_text v,
      utf8ByteSize_itemsText (w :: vs)]
    rfl

theorem utf8ByteSize_fieldsText : ∀ l : List (String × Value), (fieldsText num l).utf8ByteSize = fieldsSize num l
  | [] => rfl
  | [(k, v)] => by
    simp only [fieldsText, fieldsSize, String.utf8ByteSize_append, utf8ByteSize_quote, utf8ByteSize_text v]
    rfl
  | (k, v) :: g :: fs => by
    simp only [fieldsText, fieldsSize, String.utf8ByteSize_append, utf8ByteSize_quote, utf8ByteSize_text v,
      utf8ByteSize_fieldsText (g :: fs)]
    rfl

end

end Json
end Relay
