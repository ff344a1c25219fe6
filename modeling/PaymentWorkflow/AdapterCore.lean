import PaymentWorkflow.DeliveryCore
import PaymentWorkflow.PythonJson

/-!
`receipt.py`: the legacy callback the adapter takes and the receipt it signs; the request schema
of `receipt.accept`, which that receipt has to meet.
-/

namespace PaymentWorkflow

open Python (CodePoint Text Value literal)

/-- The zeros of the runs of ten that `\d` matches in a text pattern. -/
def decimalZeros : List Nat := [
  0x30, 0x660, 0x6f0, 0x7c0, 0x966, 0x9e6, 0xa66, 0xae6, 0xb66, 0xbe6, 0xc66, 0xce6, 0xd66, 0xde6,
  0xe50, 0xed0, 0xf20, 0x1040, 0x1090, 0x17e0, 0x1810, 0x1946, 0x19d0, 0x1a80, 0x1a90, 0x1b50,
  0x1bb0, 0x1c40, 0x1c50, 0xa620, 0xa8d0, 0xa900, 0xa9d0, 0xa9f0, 0xaa50, 0xabf0, 0xff10, 0x104a0,
  0x10d30, 0x11066, 0x110f0, 0x11136, 0x111d0, 0x112f0, 0x11450, 0x114d0, 0x11650, 0x116c0,
  0x11730, 0x118e0, 0x11950, 0x11c50, 0x11d50, 0x11da0, 0x11f50, 0x16a60, 0x16ac0, 0x16b50,
  0x1d7ce, 0x1d7d8, 0x1d7e2, 0x1d7ec, 0x1d7f6, 0x1e140, 0x1e2f0, 0x1e4f0, 0x1e950, 0x1fbf0]

def isDecimal (point : CodePoint) : Bool :=
  decimalZeros.any fun first => first ≤ point.number && point.number < first + 10

structure Stamp where
  year : Text
  month : Text
  day : Text
  separator : CodePoint
  hour : Text
  minute : Text
  second : Text
  rest : Text

def Stamp.read? : Text → Option Stamp
  | y₁ :: y₂ :: y₃ :: y₄ :: dash₁ :: m₁ :: m₂ :: dash₂ :: d₁ :: d₂ :: separator ::
      h₁ :: h₂ :: colon₁ :: n₁ :: n₂ :: colon₂ :: s₁ :: s₂ :: rest =>
      if dash₁ = '-' ∧ dash₂ = '-' ∧ colon₁ = ':' ∧ colon₂ = ':' then
        some ⟨[y₁, y₂, y₃, y₄], [m₁, m₂], [d₁, d₂], separator, [h₁, h₂], [n₁, n₂], [s₁, s₂], rest⟩
      else none
  | _ => none

def Stamp.digits (stamp : Stamp) : Text :=
  stamp.year ++ stamp.month ++ stamp.day ++ stamp.hour ++ stamp.minute ++ stamp.second

def fractionDigits : Text → Option Text
  | [] => none
  | [point] => if point = 'Z' then some [] else none
  | point :: rest =>
      if point = '.' ∧ rest.getLast? = some (CodePoint.ofChar 'Z') ∧ rest.dropLast ≠ [] ∧
          rest.dropLast.all isDecimal then some rest.dropLast
      else none

def textValue (digits : Text) : Option Nat := digitsValue (digits.map CodePoint.toChar)

/-- The fields `datetime.fromisoformat` accepts. Of a fraction it reads six digits and skips what
follows them. -/
def Stamp.isIso (stamp : Stamp) (fraction : Text) : Bool :=
  match textValue stamp.year, textValue stamp.month, textValue stamp.day, textValue stamp.hour,
      textValue stamp.minute, textValue stamp.second with
  | some year, some month, some day, some hour, some minute, some second =>
      1 ≤ year && 1 ≤ month && month ≤ 12 && 1 ≤ day && day ≤ daysInMonth year month &&
        hour ≤ 23 && minute ≤ 59 && second ≤ 59 && (fraction.take 6).all Python.isDigit
  | _, _, _, _, _, _ => false

def isLegacyOccurredAt (value : Text) : Bool :=
  match Stamp.read? value with
  | none => false
  | some stamp =>
      match fractionDigits stamp.rest with
      | none => false
      | some fraction =>
          stamp.separator = 'T' && stamp.digits.all isDecimal && stamp.isIso fraction

def requiredLegacyFields : List Text :=
  ["providerPaymentId", "operationId", "result", "message", "occurredAt"].map literal

def get? (members : List (Text × Value)) (key : Text) : Option Value :=
  (members.find? fun member => member.1 = key).map Prod.snd

def isOneLine (content : Text) : Bool :=
  content.all fun point => point ≠ '\r' && point ≠ '\n'

def legacyText (members : List (Text × Value)) (field : String) : Except String Text :=
  match get? members (literal field) with
  | some (.text content) =>
      if content ≠ [] ∧ content.length ≤ 128 ∧ isOneLine content then .ok content
      else .error ("invalid legacy " ++ field)
  | _ => .error ("invalid legacy " ++ field)

def legacyFields (members : List (Text × Value)) : Except String Unit :=
  if members.all (fun member => member.1 ∈ requiredLegacyFields) ∧
      requiredLegacyFields.all (fun field => (get? members field).isSome) then .ok ()
  else .error "unknown or missing legacy fields"

def legacyOccurredAt (value : Text) : Except String Unit :=
  if isLegacyOccurredAt value then .ok () else .error "invalid legacy occurredAt"

def legacyResult (members : List (Text × Value)) : Except String Unit :=
  match get? members (literal "result") with
  | some (.text result) =>
      if result = literal "COMPLETED" ∨ result = literal "REJECTED" then .ok ()
      else .error "invalid legacy result"
  | _ => .error "invalid legacy result"

def legacyMessage (members : List (Text × Value)) : Except String Unit :=
  match get? members (literal "message") with
  | some (.text message) =>
      if message.length ≤ 500 ∧ isOneLine message then .ok ()
      else .error "invalid legacy message"
  | _ => .error "invalid legacy message"

def validateLegacy : Value → Except String Unit
  | .dict members => do
      legacyFields members
      let _ ← legacyText members "providerPaymentId"
      let _ ← legacyText members "operationId"
      let occurredAt ← legacyText members "occurredAt"
      legacyOccurredAt occurredAt
      legacyResult members
      legacyMessage members
  | _ => .error "legacy callback must be an object"

def receiptOf (paymentId operationId occurredAt result : Value) : Value :=
  .dict [
    (literal "externalRequestId", operationId),
    (literal "messageId", paymentId),
    (literal "occurredAt", occurredAt),
    (literal "outcome", result),
    (literal "providerPaymentId", paymentId),
    (literal "version", .int 1)]

def Value.field (body : Value) (key : String) : Value :=
  match body with
  | .dict members => (get? members (literal key)).getD .null
  | _ => .null

def normalizeReceipt (legacy : Value) : Except String Value := do
  validateLegacy legacy
  return receiptOf (Value.field legacy "providerPaymentId") (Value.field legacy "operationId")
    (Value.field legacy "occurredAt") (Value.field legacy "result")

/-- `none` for a UnicodeEncodeError. -/
def canonicalBytes (receipt : Value) : Option ByteArray :=
  Python.encode (Python.dumps true receipt)

/-! What the API does with the bytes: the request schema, and the cast to jsonb. -/

def isOffset : Text → Bool
  | [point] => point = 'Z' || point = 'z'
  | [sign, h₁, h₂, colon, n₁, n₂] =>
      (sign = '+' || sign = '-') && colon = ':' && (textValue [h₁, h₂]).any (· ≤ 23) &&
        (textValue [n₁, n₂]).any (· ≤ 59)
  | _ => false

def isFractionAndOffset : Text → Bool
  | [] => false
  | point :: rest =>
      if point = '.' then
        rest.takeWhile Python.isDigit ≠ [] && isOffset (rest.dropWhile Python.isDigit)
      else isOffset (point :: rest)

def isDateTime (value : Text) : Bool :=
  match Stamp.read? value with
  | none => false
  | some stamp =>
      match textValue stamp.year, textValue stamp.month, textValue stamp.day, textValue stamp.hour,
          textValue stamp.minute, textValue stamp.second with
      | some year, some month, some day, some hour, some minute, some second =>
          (stamp.separator = 'T' || stamp.separator = 't') && 1 ≤ month && month ≤ 12 &&
            1 ≤ day && day ≤ daysInMonth year month && hour ≤ 23 && minute ≤ 59 && second ≤ 60 &&
            isFractionAndOffset stamp.rest
      | _, _, _, _, _, _ => false

def isIdText : Value → Bool
  | .text content => content ≠ [] && content.length ≤ 128 && isOneLine content
  | _ => false

def isOccurredAtText : Value → Bool
  | .text content => isDateTime content && content.length ≤ 64 &&
      content.getLast? = some (CodePoint.ofChar 'Z') && isOneLine content
  | _ => false

def isOutcomeText : Value → Bool
  | .text content => content = literal "COMPLETED" || content = literal "REJECTED"
  | _ => false

def isOne : Value → Bool
  | .int value => value = 1
  | _ => false

/-- The request schema of `receipt.accept`, property by property. -/
def receiptProperties : List (Text × (Value → Bool)) := [
  (literal "externalRequestId", isIdText),
  (literal "messageId", isIdText),
  (literal "occurredAt", isOccurredAtText),
  (literal "outcome", isOutcomeText),
  (literal "providerPaymentId", isIdText),
  (literal "version", isOne)]

def meetsReceiptSchema : Value → Bool
  | .dict members =>
      members.all (fun member => receiptProperties.any fun property => property.1 = member.1) &&
        receiptProperties.all fun property => (get? members property.1).any property.2
  | _ => false

def storedText? (content : Text) : Option String :=
  if content.any fun point => point.isSurrogate || point.number = 0 then none
  else some (String.ofList (content.map CodePoint.toChar))

def storedMember? : Text × Value → Option (String × Json)
  | (key, .text content) => do return (← storedText? key, .text (← storedText? content))
  | (key, .int value) => do return (← storedText? key, .number (.ofInt value))
  | _ => none

def storedReceipt? : Value → Option Json
  | .dict members => (members.mapM storedMember?).map Json.object
  | _ => none

end PaymentWorkflow
