import PaymentWorkflow.EngineCore
import PaymentWorkflow.JsonNumber
import PaymentWorkflow.WorkerCore
import PaymentWorkflow.Search

/-!
`FlowMapValidator.cs` and `workflow-map.schema.json`, over flow maps whose members already
have the types the schema asks for. A number may be written 1 or 1.0: the schema goes by its
value, `GetValue<int>` by its spelling.
-/

namespace PaymentWorkflow

/-! The patterns of the schema. `$` also matches before a final newline. -/

def atEnd (pattern : List Char → Bool) (content : String) : Bool :=
  pattern content.toList ||
    (content.toList.getLast? = some '\n' && pattern content.toList.dropLast)

def isIdentifier (first next : Char → Bool) : List Char → Bool
  | [] => false
  | char :: rest => first char && rest.all next && rest.length ≤ 62

def isWord : List Char → Bool
  | [] => false
  | char :: rest => char.isLower && rest.all isNameChar

def isPolicyName (chars : List Char) : Bool :=
  isWord (chars.takeWhile (· ≠ ':')) &&
    match chars.dropWhile (· ≠ ':') with
    | ':' :: rest => isWord rest
    | _ => false

def isKey : String → Bool := atEnd (isIdentifier Char.isLower isNameChar)

def isSqlIdentifier : String → Bool :=
  atEnd (isIdentifier Char.isLower fun char => char.isLower || char.isDigit || char = '_')

def isOutcome : String → Bool :=
  atEnd (isIdentifier Char.isUpper fun char => char.isUpper || char.isDigit || char = '_')

def isSignalName : String → Bool := atEnd (signalTypeFrom false)

def isPolicy : String → Bool := atEnd isPolicyName

def isPointer (content : String) : Bool := content.toList.head? = some '/'

def isObject {Value : Type} (members : List (String × Value)) : Bool :=
  (members.map Prod.fst).Nodup

/-- `raised`: `GetValue<int>` throws. -/
inductive SemanticsError
  | invalid (message : String)
  | raised
deriving DecidableEq

def WrittenInt.getInt (number : WrittenInt) : Except SemanticsError Int :=
  match number.literal.getInt? with
  | some value => .ok value
  | none => .error .raised

theorem WrittenInt.getInt_eq (number : WrittenInt) : number.getInt =
    if number.literal.isPlain && isInt number.value then .ok number.value else .error .raised := by
  rw [WrittenInt.getInt, number.getInt?_eq]
  cases number.literal.isPlain && isInt number.value <;> rfl

/-- What the validators read of a number in a map. -/
class MapNumber (Number : Type) where
  value : Number → Int
  getInt : Number → Except SemanticsError Int
  getInt_value : ∀ {number : Number} {read : Int}, getInt number = .ok read → read = value number

export MapNumber (getInt)

instance : MapNumber Int where
  value := id
  getInt := fun value => if isInt value then .ok value else .error .raised
  getInt_value := by
    intro value read
    split
    · exact fun same => (Except.ok.inj same).symm
    · exact fun raised => by cases raised

instance : MapNumber WrittenInt where
  value := WrittenInt.value
  getInt := WrittenInt.getInt
  getInt_value := by
    intro number read
    rw [number.getInt_eq]
    split
    · exact fun same => (Except.ok.inj same).symm
    · exact fun raised => by cases raised

@[simp] theorem MapNumber.value_int (value : Int) : MapNumber.value value = value := rfl

theorem getInt_int (value : Int) :
    getInt value = if isInt value then .ok value else .error .raised := rfl

theorem getInt_written (number : WrittenInt) : getInt number =
    if number.literal.isPlain && isInt number.value then .ok number.value else .error .raised :=
  number.getInt_eq

section Schema

variable {Number : Type} [MapNumber Number]

open MapNumber (value)

def Retry.matchesSchema (retry : Retry Number) : Bool :=
  retry.maxAttempts.any (fun count => 1 ≤ value count && value count ≤ 10) &&
    retry.delaysMs.length ≤ 9 &&
    retry.delaysMs.all fun delay => 0 ≤ value delay && value delay ≤ 30000

def FlowTask.matchesSchema (task : FlowTask Number) : Bool :=
  task.service = "postgres" && isSqlIdentifier task.module && isSqlIdentifier task.action &&
    1 ≤ value task.actionVersion && task.requiredPolicy.Nodup &&
    task.requiredPolicy.all isPolicy &&
    1 ≤ value task.timeoutMs && value task.timeoutMs ≤ 30000 && task.retry.matchesSchema &&
    isObject task.inputMapping &&
    task.inputMapping.all (fun entry => isPointer entry.1 && isPointer entry.2) &&
    isObject task.inputConstants

def FlowStep.matchesSchema (step : FlowStep Number) : Bool :=
  isKey step.key &&
    match step.type, step.task, step.signalType, step.outcome, step.allowedOutcomes with
    | "automatic", some task, none, none, none => task.matchesSchema
    | "wait_signal", none, some signalType, some outcome, none =>
        isSignalName signalType && isOutcome outcome
    | "manual", none, none, none, some outcomes =>
        outcomes ≠ [] && outcomes.Nodup && outcomes.all isOutcome
    | "end", none, none, some outcome, none => isOutcome outcome
    | _, _, _, _, _ => false

def FlowTransition.matchesSchema (transition : FlowTransition) : Bool :=
  isKey transition.fromStep && isOutcome transition.outcome && isKey transition.toStep

def FlowMap.matchesSchema (map : FlowMap Number) : Bool :=
  map.contractVersion = "course-1" && isKey map.flowName && 1 ≤ value map.version &&
    isKey map.startStep && 2 ≤ map.steps.length && map.steps.all FlowStep.matchesSchema &&
    1 ≤ map.transitions.length && map.transitions.Nodup &&
    map.transitions.all FlowTransition.matchesSchema

end Schema

/-! The semantic checks. -/

abbrev Check := Except SemanticsError Unit

def invalid {Value : Type} (message : String) : Except SemanticsError Value :=
  .error (.invalid message)

def require (holds : Prop) [Decidable holds] (message : String) : Check :=
  if holds then .ok () else invalid message

def checkAll {Item : Type} (check : Item → Check) : List Item → Check
  | [] => .ok ()
  | item :: rest => do
      check item
      checkAll check rest

def setEquals (left right : List String) : Bool :=
  left.all (fun item => item ∈ right) && right.all fun item => item ∈ left

section Semantics

variable {Number : Type}

namespace FlowMap

def stepKeys (map : FlowMap Number) : List String := map.steps.map FlowStep.key

def stepType? (map : FlowMap Number) (key : String) : Option String :=
  (map.steps.find? fun step => step.key = key).map FlowStep.type

def outgoing (map : FlowMap Number) (key : String) : List String :=
  (map.transitions.filter fun transition => transition.fromStep = key).map FlowTransition.outcome

def target? (map : FlowMap Number) (key outcome : String) : Option String :=
  (map.transitions.find? fun transition =>
    transition.fromStep = key ∧ transition.outcome = outcome).map FlowTransition.toStep

def successors (map : FlowMap Number) (key : String) : List String :=
  (map.outgoing key).filterMap (map.target? key)

end FlowMap

def checkStepKey (seen : List String) (step : FlowStep Number) : Except SemanticsError (List String) :=
  if step.key ∈ seen then invalid ("duplicate step key " ++ step.key)
  else .ok (step.key :: seen)

def checkTransition (map : FlowMap Number) (seen : List String) (transition : FlowTransition) :
    Except SemanticsError (List String) :=
  let source := transition.fromStep
  if source ∉ map.stepKeys ∨ transition.toStep ∉ map.stepKeys then
    invalid ("transition " ++ source ++ "->" ++ transition.toStep ++ " references an unknown step")
  else if source ++ "\x00" ++ transition.outcome ∈ seen then
    invalid ("duplicate transition for outcome " ++ transition.outcome ++ " from step " ++ source)
  else if map.stepType? source = some "end" then
    invalid ("transition from end step " ++ source ++ " is not allowed")
  else .ok ((source ++ "\x00" ++ transition.outcome) :: seen)

def FlowMap.reachable (map : FlowMap Number) : List String :=
  Search.bfs map.successors map.steps.length [map.startStep] [map.startStep]

def checkReachable (map : FlowMap Number) (key : String) : Check :=
  require (key ∈ map.reachable) ("step " ++ key ++ " is not reachable from start_step")

def getOrDefault (catalog : List ActionRow) (module action : String) (version : Int) :
    Option ActionRow :=
  catalog.find? fun row =>
    row.module = module ∧ row.action = action ∧ row.version = version ∧ row.enabled = true

def validateRetry [MapNumber Number] (retry : Retry Number) : Check := do
  -- the schema requires the member
  let maxAttempts ← retry.maxAttempts.elim (.ok 0) getInt
  require (¬ (maxAttempts < 1 ∨ maxAttempts > 10)) "max_attempts must be in range 1..10"
  require ((retry.delaysMs.length : Int) = maxAttempts - 1)
    "delays_ms must contain exactly max_attempts - 1 values"

def pointersOverlap (left right : String) : Bool :=
  ((JsonPointer.split left).zip (JsonPointer.split right)).all fun pair => pair.1 = pair.2

def checkOverlap : List String → Check
  | [] => .ok ()
  | target :: rest =>
      match rest.find? (pointersOverlap target) with
      | some other => invalid ("mapping targets " ++ target ++ " and " ++ other ++ " overlap")
      | none => checkOverlap rest

def validateMapping (task : FlowTask Number) : Check := do
  checkAll (fun entry : String × String => require (isPointer entry.1 ∧ isPointer entry.2)
    "input_mapping must use RFC 6901 JSON pointers") task.inputMapping
  checkOverlap (task.inputMapping.map Prod.fst ++
    task.inputConstants.map fun constant => "/" ++ constant.1)

variable [MapNumber Number]

def checkManifest (key : String) (actual : List String) (task : FlowTask Number) (manifest : ActionRow)
    (named : String) : Check := do
  require manifest.enabled (named ++ " is disabled")
  require (setEquals actual manifest.outcomes)
    ("step " ++ key ++ " must declare exactly one transition per action outcome")
  require (setEquals task.requiredPolicy manifest.requiredPolicy)
    ("task required_policy of step " ++ key ++ " must equal action required_policy")
  validateRetry task.retry
  validateMapping task

def checkTask (catalog : List ActionRow) (key : String) (actual : List String) (task : FlowTask Number) :
    Check := do
  require (task.service = "postgres") ("task of step " ++ key ++ " must use service postgres")
  let version ← getInt task.actionVersion
  let named := "action " ++ task.module ++ "." ++ task.action ++ " version " ++ toString version
  match getOrDefault catalog task.module task.action version with
  | none => invalid (named ++ " is not published and enabled")
  | some manifest => checkManifest key actual task manifest named

def checkStep (catalog : List ActionRow) (map : FlowMap Number) (step : FlowStep Number) : Check :=
  let actual := map.outgoing step.key
  match step.type with
  | "automatic" =>
      match step.task with
      | none => invalid ("task of step " ++ step.key ++ " must use service postgres")
      | some task => checkTask catalog step.key actual task
  | "wait_signal" =>
      match step.outcome with
      | none => invalid ("wait_signal step " ++ step.key ++ " is missing outcome")
      | some outcome =>
          require (setEquals actual [outcome])
            ("step " ++ step.key ++ " must declare exactly one transition for outcome " ++ outcome)
  | "manual" => do
      let outcomes := step.allowedOutcomes.getD []
      require (outcomes ≠ []) ("manual step " ++ step.key ++ " must declare allowed_outcomes")
      require (setEquals actual outcomes)
        ("step " ++ step.key ++ " must declare exactly one transition per allowed outcome")
  | "end" => require (actual = []) ("end step " ++ step.key ++ " must not declare transitions")
  | _ => .ok ()

def validateSemantics (catalog : List ActionRow) (map : FlowMap Number) : Check := do
  let _ ← map.steps.foldlM checkStepKey []
  require (map.startStep ∈ map.stepKeys) ("start_step " ++ map.startStep ++ " does not exist")
  let _ ← map.transitions.foldlM (checkTransition map) []
  checkAll (checkReachable map) map.stepKeys
  require (map.stepKeys.any fun key => map.stepType? key = some "end" ∧ key ∈ map.reachable)
    "no reachable end step"
  require (Search.hasCycle map.successors (map.steps.length + 1) map.startStep = false)
    "flow contains a cycle"
  checkAll (checkStep catalog map) map.steps

structure FlowMap.Accepted (catalog : List ActionRow) (map : FlowMap Number) : Prop where
  schema : map.matchesSchema = true
  semantics : validateSemantics catalog map = .ok ()

end Semantics

end PaymentWorkflow
