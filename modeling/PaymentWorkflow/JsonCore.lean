import Mathlib.Data.List.Basic
import Mathlib.Data.Nat.Digits.Defs
import Mathlib.Tactic.Ring

/-!
JSON values as the jsonb columns and the worker's JsonNode tree hold them, the operators of jsonb,
and the text of a uuid.
-/

namespace PaymentWorkflow

/-- `mantissa / 10 ^ scale`: a numeric keeps the zeros it is written with, 1.0 beside 1. -/
structure Decimal where
  mantissa : Int
  scale : Nat
deriving DecidableEq

namespace Decimal

def ofInt (value : Int) : Decimal := ⟨value, 0⟩

def same (left right : Decimal) : Bool :=
  left.mantissa * 10 ^ right.scale = right.mantissa * 10 ^ left.scale

/-- `::integer` on a jsonb number, half away from zero. -/
def rounded (value : Decimal) : Int :=
  value.mantissa.sign * ((2 * value.mantissa.natAbs + 10 ^ value.scale) / (2 * 10 ^ value.scale))

end Decimal

inductive Json
  | null
  | bool (value : Bool)
  | number (value : Decimal)
  | text (value : String)
  | array (items : List Json)
  | object (members : List (String × Json))

namespace Json

mutual
def decEq : (left right : Json) → Decidable (left = right)
  | .null, .null => isTrue rfl
  | .bool left, .bool right =>
      if same : left = right then isTrue (by rw [same]) else isFalse (by simp [same])
  | .number left, .number right =>
      if same : left = right then isTrue (by rw [same]) else isFalse (by simp [same])
  | .text left, .text right =>
      if same : left = right then isTrue (by rw [same]) else isFalse (by simp [same])
  | .array left, .array right =>
      match decEqItems left right with
      | isTrue same => isTrue (by rw [same])
      | isFalse different => isFalse (by simp [different])
  | .object left, .object right =>
      match decEqMembers left right with
      | isTrue same => isTrue (by rw [same])
      | isFalse different => isFalse (by simp [different])
  | .null, .bool _ | .null, .number _ | .null, .text _ | .null, .array _ | .null, .object _
  | .bool _, .null | .bool _, .number _ | .bool _, .text _ | .bool _, .array _
  | .bool _, .object _ | .number _, .null | .number _, .bool _ | .number _, .text _
  | .number _, .array _ | .number _, .object _ | .text _, .null | .text _, .bool _
  | .text _, .number _ | .text _, .array _ | .text _, .object _ | .array _, .null
  | .array _, .bool _ | .array _, .number _ | .array _, .text _ | .array _, .object _
  | .object _, .null | .object _, .bool _ | .object _, .number _ | .object _, .text _
  | .object _, .array _ => isFalse (by simp)

def decEqItems : (left right : List Json) → Decidable (left = right)
  | [], [] => isTrue rfl
  | left :: leftRest, right :: rightRest =>
      match decEq left right, decEqItems leftRest rightRest with
      | isTrue same, isTrue sameRest => isTrue (by rw [same, sameRest])
      | isFalse different, _ => isFalse (by simp [different])
      | _, isFalse different => isFalse (by simp [different])
  | [], _ :: _ | _ :: _, [] => isFalse (by simp)

def decEqMembers : (left right : List (String × Json)) → Decidable (left = right)
  | [], [] => isTrue rfl
  | (leftKey, left) :: leftRest, (rightKey, right) :: rightRest =>
      if sameKey : leftKey = rightKey then
        match decEq left right, decEqMembers leftRest rightRest with
        | isTrue same, isTrue sameRest => isTrue (by rw [sameKey, same, sameRest])
        | isFalse different, _ => isFalse (by simp [different])
        | _, isFalse different => isFalse (by simp [different])
      else isFalse (by simp [sameKey])
  | [], _ :: _ | _ :: _, [] => isFalse (by simp)
end

instance : DecidableEq Json := decEq

mutual
def same : (left right : Json) → Bool
  | .null, .null => true
  | .bool left, .bool right => left = right
  | .number left, .number right => left.same right
  | .text left, .text right => left = right
  | .array left, .array right => sameItems left right
  | .object left, .object right => sameMembers left right
  | _, _ => false

def sameItems : (left right : List Json) → Bool
  | [], [] => true
  | left :: leftRest, right :: rightRest => same left right && sameItems leftRest rightRest
  | _, _ => false

def sameMembers : (left right : List (String × Json)) → Bool
  | [], [] => true
  | (leftKey, left) :: leftRest, (rightKey, right) :: rightRest =>
      leftKey = rightKey && same left right && sameMembers leftRest rightRest
  | _, _ => false
end

mutual
theorem same_refl : (value : Json) → value.same value = true
  | .null => rfl
  | .bool value => by simp [same]
  | .number value => by simp [same, Decimal.same]
  | .text value => by simp [same]
  | .array items => by rw [same, sameItems_refl items]
  | .object members => by rw [same, sameMembers_refl members]

theorem sameItems_refl : (items : List Json) → sameItems items items = true
  | [] => rfl
  | item :: rest => by rw [sameItems, same_refl item, sameItems_refl rest]; rfl

theorem sameMembers_refl : (members : List (String × Json)) → sameMembers members members = true
  | [] => rfl
  | (key, value) :: rest => by
      rw [sameMembers, same_refl value, sameMembers_refl rest]
      simp
end

mutual
theorem same_comm : (left right : Json) → left.same right = right.same left
  | .null, right => by cases right <;> simp [same]
  | .bool left, right => by cases right <;> simp [same, eq_comm]
  | .number left, right => by cases right <;> simp [same, Decimal.same, eq_comm]
  | .text left, right => by cases right <;> simp [same, eq_comm]
  | .array left, right => by cases right <;> simp [same, sameItems_comm left]
  | .object left, right => by cases right <;> simp [same, sameMembers_comm left]

theorem sameItems_comm : (left right : List Json) → sameItems left right = sameItems right left
  | [], right => by cases right <;> simp [sameItems]
  | left :: rest, right => by
      cases right with
      | nil => rfl
      | cons other others => rw [sameItems, sameItems, same_comm left, sameItems_comm rest]

theorem sameMembers_comm : (left right : List (String × Json)) →
    sameMembers left right = sameMembers right left
  | [], right => by cases right <;> simp [sameMembers]
  | (key, value) :: rest, right => by
      cases right with
      | nil => rfl
      | cons other others =>
          rw [sameMembers, sameMembers, same_comm value, sameMembers_comm rest]
          simp [eq_comm]
end

theorem decimal_same_trans {left middle right : Decimal} (first : left.same middle = true)
    (second : middle.same right = true) : left.same right = true := by
  simp only [Decimal.same, decide_eq_true_eq] at first second ⊢
  have positive : (10 : Int) ^ middle.scale ≠ 0 := pow_ne_zero _ (by decide)
  refine mul_right_cancel₀ positive ?_
  calc left.mantissa * 10 ^ right.scale * 10 ^ middle.scale
      = left.mantissa * 10 ^ middle.scale * 10 ^ right.scale := by ring
    _ = middle.mantissa * 10 ^ left.scale * 10 ^ right.scale := by rw [first]
    _ = middle.mantissa * 10 ^ right.scale * 10 ^ left.scale := by ring
    _ = right.mantissa * 10 ^ middle.scale * 10 ^ left.scale := by rw [second]
    _ = right.mantissa * 10 ^ left.scale * 10 ^ middle.scale := by ring

mutual
theorem same_trans : (left : Json) → {middle right : Json} → left.same middle = true →
    middle.same right = true → left.same right = true
  | .null, middle, right => by cases middle <;> cases right <;> simp [same]
  | .bool _, middle, right => by cases middle <;> cases right <;> simp +contextual [same]
  | .number _, middle, right => by
      cases middle <;> cases right <;> simp only [same, Bool.false_eq_true, false_implies,
        implies_true]
      exact decimal_same_trans
  | .text _, middle, right => by cases middle <;> cases right <;> simp +contextual [same]
  | .array left, middle, right => by
      cases middle <;> cases right <;> simp only [same, Bool.false_eq_true, false_implies,
        implies_true]
      exact sameItems_trans left
  | .object left, middle, right => by
      cases middle <;> cases right <;> simp only [same, Bool.false_eq_true, false_implies,
        implies_true]
      exact sameMembers_trans left

theorem sameItems_trans : (left : List Json) → {middle right : List Json} →
    sameItems left middle = true → sameItems middle right = true → sameItems left right = true
  | [], middle, right => by cases middle <;> cases right <;> simp [sameItems]
  | left :: rest, middle, right => by
      cases middle <;> cases right <;> simp only [sameItems, Bool.false_eq_true, false_implies,
        implies_true, Bool.and_eq_true]
      rintro ⟨first, firsts⟩ ⟨second, seconds⟩
      exact ⟨same_trans left first second, sameItems_trans rest firsts seconds⟩

theorem sameMembers_trans : (left : List (String × Json)) → {middle right : List (String × Json)} →
    sameMembers left middle = true → sameMembers middle right = true →
      sameMembers left right = true
  | [], middle, right => by cases middle <;> cases right <;> simp [sameMembers]
  | (key, value) :: rest, middle, right => by
      cases middle <;> cases right <;> simp only [sameMembers, Bool.false_eq_true, false_implies,
        implies_true, Bool.and_eq_true, decide_eq_true_eq]
      rintro ⟨⟨keys, first⟩, firsts⟩ ⟨⟨others, second⟩, seconds⟩
      exact ⟨⟨keys.trans others, same_trans value first second⟩,
        sameMembers_trans rest firsts seconds⟩
end

theorem same_text {value : Json} {content : String} :
    value.same (.text content) = true ↔ value = .text content := by
  cases value <;> simp [same]

theorem sameMembers_texts {texts : List (String × String)} {members : List (String × Json)} :
    sameMembers members (texts.map fun entry => (entry.1, .text entry.2)) = true ↔
      members = texts.map fun entry => (entry.1, .text entry.2) := by
  induction texts generalizing members with
  | nil => cases members <;> simp [sameMembers]
  | cons entry rest ih =>
      cases members with
      | nil => simp [sameMembers]
      | cons member others =>
          simp only [sameMembers, List.map_cons, Bool.and_eq_true, decide_eq_true_eq, same_text, ih,
            List.cons.injEq, Prod.ext_iff]

theorem same_texts {texts : List (String × String)} {value : Json} :
    value.same (.object (texts.map fun entry => (entry.1, .text entry.2))) = true ↔
      value = .object (texts.map fun entry => (entry.1, .text entry.2)) := by
  cases value <;> simp [same, sameMembers_texts]

def member? : Json → String → Option Json
  | .object members, key => (members.find? fun entry => entry.1 = key).map (·.2)
  | _, _ => none

/-- A number as jsonb prints it: at least one digit before the point, `scale` digits behind it. -/
def decimalChars (value : Decimal) : List Char :=
  let digits := Nat.toDigits 10 value.mantissa.natAbs
  let padded := List.replicate (value.scale + 1 - digits.length) '0' ++ digits
  let behind := padded.drop (padded.length - value.scale)
  (if value.mantissa < 0 then ['-'] else []) ++ padded.take (padded.length - value.scale) ++
    if value.scale = 0 then [] else '.' :: behind

def decimalText (value : Decimal) : String := String.ofList (decimalChars value)

def escaped (char : Char) : List Char :=
  match char with
  | '"' => ['\\', '"']
  | '\\' => ['\\', '\\']
  | '\n' => ['\\', 'n']
  | '\r' => ['\\', 'r']
  | '\t' => ['\\', 't']
  | '\x08' => ['\\', 'b']
  | '\x0c' => ['\\', 'f']
  | other =>
      if other.toNat < 32 then
        ['\\', 'u', '0', '0', Nat.digitChar (other.toNat / 16), Nat.digitChar (other.toNat % 16)]
      else [other]

def quoted (content : String) : String :=
  "\"" ++ String.ofList (content.toList.flatMap escaped) ++ "\""

mutual
def render : Json → String
  | .null => "null"
  | .bool value => if value then "true" else "false"
  | .number value => decimalText value
  | .text value => quoted value
  | .array items => "[" ++ renderItems items ++ "]"
  | .object members => "\x7b" ++ renderMembers members ++ "\x7d"

def renderItems : List Json → String
  | [] => ""
  | [item] => render item
  | item :: rest => render item ++ ", " ++ renderItems rest

def renderMembers : List (String × Json) → String
  | [] => ""
  | [(key, value)] => quoted key ++ ": " ++ render value
  | (key, value) :: rest => quoted key ++ ": " ++ render value ++ ", " ++ renderMembers rest
end

/-- `value ->> key`: a JSON null or a missing member is SQL NULL. -/
def text? (value : Json) (key : String) : Option String :=
  match value.member? key with
  | none | some .null => none
  | some (.text content) => some content
  | some other => some other.render

def texts : List Json → List String
  | [] => []
  | .text content :: rest => content :: texts rest
  | _ :: rest => texts rest

def keys : Json → List String
  | .object members => members.map Prod.fst
  | .array items => texts items
  | .text content => [content]
  | _ => []

def int? (value : Json) (key : String) : Option Int :=
  match value.member? key with
  | some (.number decimal) => if decimal.scale = 0 then some decimal.mantissa else none
  | _ => none

end Json

/-- A uuid is a number, written out in text; the cast `::uuid` reads the text back. -/
def uuidText (id : Nat) : String := Nat.repr id

def castUuid (content : String) : Option Nat :=
  if content.toList ≠ [] ∧ content.toList.all Char.isDigit = true then
    some (Nat.ofDigitChars 10 content.toList 0)
  else none

theorem castUuid_uuidText (id : Nat) : castUuid (uuidText id) = some id := by
  have digits : ∀ digit ∈ Nat.toDigits 10 id, digit.isDigit = true :=
    fun digit member => Nat.isDigit_of_mem_toDigits (by omega) (by omega) member
  simpa [castUuid, uuidText] using digits

theorem uuidText_ne (id : Nat) : uuidText id ≠ "" := by
  intro empty
  have cast := castUuid_uuidText id
  rw [empty] at cast
  cases cast

theorem uuidText_injective {left right : Nat} (same : uuidText left = uuidText right) :
    left = right := by
  have cast := congrArg castUuid same
  simpa [castUuid_uuidText] using cast

end PaymentWorkflow
