import PaymentWorkflow.AmountText
import PaymentWorkflow.Binary64
import PaymentWorkflow.EndpointCore
import PaymentWorkflow.JsonNumber

/-! `FlowMapLoader.cs`, over JSON documents and the nodes YamlDotNet reads their text as. -/

namespace PaymentWorkflow

/-- In lowest terms: the loaders are compared by the values of their numbers. -/
def Decimal.reduce (mantissa : Int) : Nat → Decimal
  | 0 => .ofInt mantissa
  | scale + 1 =>
      if mantissa % 10 = 0 then reduce (mantissa / 10) scale else ⟨mantissa, scale + 1⟩

def Decimal.scaled (mantissa exponent : Int) : Decimal :=
  if 0 ≤ exponent then .ofInt (mantissa * 10 ^ exponent.toNat)
  else reduce mantissa (-exponent).toNat

/-! The documents `JsonNode.Parse` reads. -/

namespace NumberLiteral

def value (literal : NumberLiteral) : Decimal :=
  .scaled (withSign literal.negative literal.digits) (literal.power - literal.fraction.length)

end NumberLiteral

inductive Document
  | null
  | bool (value : Bool)
  | number (literal : NumberLiteral)
  | text (value : String)
  | array (items : List Document)
  | object (members : List (String × Document))

namespace Document

mutual
def value : Document → Json
  | .null => .null
  | .bool content => .bool content
  | .number literal => .number literal.value
  | .text content => .text content
  | .array items => .array (valueItems items)
  | .object members => .object (valueMembers members)
def valueItems : List Document → List Json
  | [] => []
  | item :: rest => value item :: valueItems rest
def valueMembers : List (String × Document) → List (String × Json)
  | [] => []
  | (key, content) :: rest => (key, value content) :: valueMembers rest
end

end Document

/-! YamlDotNet. -/

inductive YamlNode
  | scalar (value : Option String) (quoted : Bool)
  | sequence (children : List YamlNode)
  | mapping (children : List (YamlNode × YamlNode))
  | other

namespace Document

mutual
/-- The node of a document: a plain scalar keeps its text. `none` for the "Duplicate key" error. -/
def compose : Document → Option YamlNode
  | .null => some (.scalar (some "null") false)
  | .bool content => some (.scalar (some (if content then "true" else "false")) false)
  | .number literal => some (.scalar (some (String.ofList literal.chars)) false)
  | .text content => some (.scalar (some content) true)
  | .array items => (composeItems items).map .sequence
  | .object members =>
      if (members.map Prod.fst).Nodup then (composeMembers members).map .mapping else none
def composeItems : List Document → Option (List YamlNode)
  | [] => some []
  | item :: rest => (compose item).bind fun node => (composeItems rest).map (node :: ·)
def composeMembers : List (String × Document) → Option (List (YamlNode × YamlNode))
  | [] => some []
  | (key, content) :: rest =>
      (compose content).bind fun node =>
        (composeMembers rest).map ((.scalar (some key) true, node) :: ·)
end

end Document

/-! The parsers a scalar is tried with. -/

def stripped (blank : Char → Bool) (chars : List Char) : List Char :=
  ((chars.dropWhile blank).reverse.dropWhile blank).reverse

def isNul (char : Char) : Bool := char.toNat = 0

def boolTryParse (chars : List Char) : Option Bool :=
  let name := (stripped (fun char => isWhiteSpace char || isNul char) chars).map Char.toLower
  if name = "true".toList then some true
  else if name = "false".toList then some false
  else none

def longTryParse (chars : List Char) : Option Int :=
  (JsonPointer.parsedInt chars).filter fun value => -2 ^ 63 ≤ value ∧ value < 2 ^ 63

/-- A double with its sign; `none` for an infinity and for NaN. -/
abbrev Double := Option (Bool × Binary64.Finite)

/-- An exponent of ten digits is not read to its end. -/
def roundedDouble (negative : Bool) (digits : Nat) (power place : Int) : Double :=
  if digits = 0 ∨ power ≤ -10 ^ 9 then some (negative, ⟨0, 0⟩)
  else if 10 ^ 9 ≤ power then none
  else
    let (numerator, denominator) := Binary64.ratio 10 digits place
    (Binary64.nearest numerator denominator).map fun magnitude => (negative, magnitude)

/-- Commas may follow a digit before the point. -/
def doubleParts (chars : List Char) : Option (List Char × List Char × Int) :=
  let grouped := chars.takeWhile fun char => char.isDigit || char = ','
  let rest := chars.dropWhile fun char => char.isDigit || char = ','
  if grouped.head? = some ',' then none
  else decimalParts (grouped.filter (fun char => char ≠ ',') ++ rest)

def isNotFinite (chars : List Char) : Bool :=
  let name := String.ofList ((stripped isWhiteSpace chars).map Char.toLower)
  name ∈ ["infinity", "-infinity", "nan", "+infinity", "+nan", "-nan"]

def doubleTryParse (chars : List Char) : Option Double :=
  let body := trimmed (chars.reverse.dropWhile isNul).reverse
  let negative := body.head? = some '-'
  let unsigned := if negative ∨ body.head? = some '+' then body.drop 1 else body
  match doubleParts unsigned with
  | some (whole, fraction, power) =>
      some (roundedDouble negative (Nat.ofDigitChars 10 (whole ++ fraction) 0) power
        (power - fraction.length))
  | none => if isNotFinite chars then some none else none

mutual
/-- The innermost value counts as one, whether or not it is a container. -/
def Json.layers : Json → Nat
  | .array items => itemsLayers items + 1
  | .object members => membersLayers members + 1
  | _ => 1

def Json.itemsLayers : List Json → Nat
  | [] => 0
  | item :: rest => max item.layers (itemsLayers rest)

def Json.membersLayers : List (String × Json) → Nat
  | [] => 0
  | (_, value) :: rest => max value.layers (membersLayers rest)
end

namespace FlowMapLoader

inductive Boxed
  | null
  | boolean (value : Bool)
  | integer (value : Int)
  | number (value : Double)
  | text (value : String)
  | array (items : List Boxed)
  | dictionary (members : List (String × Boxed))

def assign (members : List (String × Boxed)) (key : String) (value : Boxed) :
    List (String × Boxed) :=
  if members.any fun member => member.1 = key then
    members.map fun member => if member.1 = key then (key, value) else member
  else members ++ [(key, value)]

def scalarToJson (content : String) : Boxed :=
  match boolTryParse content.toList with
  | some boolean => .boolean boolean
  | none =>
      match longTryParse content.toList with
      | some integer => .integer integer
      | none =>
          match doubleTryParse content.toList with
          | some number => .number number
          | none => .text content

mutual
def toJson : YamlNode → Boxed
  | .scalar none _ => .null
  | .scalar (some content) _ => scalarToJson content
  | .sequence children => .array (toJsonItems children)
  | .mapping children => .dictionary (toJsonMembers [] children)
  | .other => .null
def toJsonItems : List YamlNode → List Boxed
  | [] => []
  | child :: rest => toJson child :: toJsonItems rest
def toJsonMembers (result : List (String × Boxed)) : List (YamlNode × YamlNode) →
    List (String × Boxed)
  | [] => result
  | (.scalar (some key) _, child) :: rest => toJsonMembers (assign result key (toJson child)) rest
  | _ :: rest => toJsonMembers result rest
end

def writtenDouble : Double → Option Decimal
  | none => none
  | some (negative, magnitude) => (Binary64.shortest magnitude).map fun (digits, place) =>
      .scaled (withSign negative digits) place

mutual
/-- JSON has no infinity and no NaN: the serializer throws. -/
def serialized : Boxed → Option Json
  | .null => some .null
  | .boolean value => some (.bool value)
  | .integer value => some (.number (.ofInt value))
  | .number value => (writtenDouble value).map .number
  | .text value => some (.text value)
  | .array items => (serializedItems items).map .array
  | .dictionary members => (serializedMembers members).map .object
def serializedItems : List Boxed → Option (List Json)
  | [] => some []
  | item :: rest => (serialized item).bind fun value => (serializedItems rest).map (value :: ·)
def serializedMembers : List (String × Boxed) → Option (List (String × Json))
  | [] => some []
  | (key, item) :: rest =>
      (serialized item).bind fun value => (serializedMembers rest).map ((key, value) :: ·)
end

end FlowMapLoader

end PaymentWorkflow
