import PaymentWorkflow.SchemaCore
import PaymentWorkflow.TextCore

/-! `JsonPointer.cs` and the payload `WorkerLoop.cs` builds for a claimed job. -/

namespace PaymentWorkflow

namespace JsonPointer

/-- `Split` with `RemoveEmptyEntries`; `segment` holds the characters read so far, last first. -/
def splitFrom (segment : List Char) : List Char → List (List Char)
  | [] => if segment = [] then [] else [segment.reverse]
  | char :: rest =>
      if char = '/' then
        if segment = [] then splitFrom [] rest else segment.reverse :: splitFrom [] rest
      else splitFrom (char :: segment) rest

def split (pointer : String) : List (List Char) := splitFrom [] pointer.toList

def replaceEscape (code replacement : Char) : List Char → List Char
  | [] => []
  | [char] => [char]
  | char :: next :: rest =>
      if char = '~' ∧ next = code then replacement :: replaceEscape code replacement rest
      else char :: replaceEscape code replacement (next :: rest)

def unescape (segment : List Char) : List Char :=
  replaceEscape '0' '~' (replaceEscape '1' '/' segment)

/-- The digits an `int.TryParse` reads, which skips blanks around them and NULs after those. -/
def parsedInt (segment : List Char) : Option Int :=
  signedChars (trimmed (segment.reverse.dropWhile fun char => char.toNat = 0).reverse)

def index? (segment : List Char) (count : Nat) : Option Nat :=
  match parsedInt segment with
  | none => none
  | some value => if 0 ≤ value ∧ value < 2 ^ 31 ∧ value < count then some value.toNat else none

/-- A `JsonNode` reference that is null stands for a JSON null as for nothing at all. -/
def nonNull : Json → Option Json
  | .null => none
  | value => some value

def resolveSegments : Json → List (List Char) → Option Json
  | current, [] => nonNull current
  | current, segment :: rest =>
      match current with
      | .object _ => (current.member? (String.ofList (unescape segment))).bind fun next =>
          resolveSegments next rest
      | .array items => (index? segment items.length).bind fun index =>
          items[index]?.bind fun next => resolveSegments next rest
      | _ => none

def resolve (root : Json) (pointer : String) : Option Json :=
  if pointer = "" ∨ pointer = "/" then some root else resolveSegments root (split pointer)

inductive SetFailure
  | refused | thrown
deriving DecidableEq

def setMember (key : String) (value : Json) : List (String × Json) → List (String × Json)
  | [] => [(key, value)]
  | entry :: rest => if entry.1 = key then (key, value) :: rest else entry :: setMember key value rest

def setSegments (value : Json) : List (List Char) → Json → Except SetFailure Json
  | [], _ => .error .thrown
  | [last], .object members =>
      .ok (.object (setMember (String.ofList (unescape last)) value members))
  | [last], .array items =>
      match index? (unescape last) items.length with
      | none => .error .refused
      | some index => .ok (.array (items.set index value))
  | segment :: rest, .object members =>
      let key := String.ofList (unescape segment)
      match (Json.object members).member? key with
      | none | some .null => .error .refused
      | some next => do
          let changed ← setSegments value rest next
          .ok (.object (setMember key changed members))
  | segment :: rest, .array items =>
      match index? (unescape segment) items.length with
      | none => .error .refused
      | some index =>
          match items[index]? with
          | none => .error .refused
          | some next => do
              let changed ← setSegments value rest next
              .ok (.array (items.set index changed))
  | _, _ => .error .refused

/-- `Set` changes the tree in place; here it returns the changed tree. -/
def set (root : Json) (pointer : String) (value : Json) : Except SetFailure Json :=
  if pointer = "/" then .error .refused else setSegments value (split pointer) root

end JsonPointer

inductive PayloadFailure
  | missingProcessData | invalidMappingTarget | thrown
deriving DecidableEq

def mapInput (processData : Json) (constants : Json) (entry : String × String) :
    Except PayloadFailure Json :=
  match (JsonPointer.nonNull processData).bind fun root => JsonPointer.resolve root entry.2 with
  | none => .error .missingProcessData
  | some sourceValue =>
      match JsonPointer.set constants entry.1 sourceValue with
      | .ok changed => .ok changed
      | .error .refused => .error .invalidMappingTarget
      | .error .thrown => .error .thrown

def buildPayload (processData : Json) (task : FlowTask) : Except PayloadFailure Json :=
  task.inputMapping.foldlM (mapInput processData) (.object task.inputConstants)

end PaymentWorkflow
