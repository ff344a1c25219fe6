import PaymentWorkflow.PublishCore
import PaymentWorkflow.TextCore

/-!
`publish_flow` and `activate_flow` over any jsonb map, statement by statement. A statement that
fails leaves the tables as the ones before it made them; the handler of `publish_flow` starts from
the tables its block was entered with.
-/

namespace PaymentWorkflow

namespace Json

def hasKey (value : Json) (key : String) : Bool :=
  match value with
  | .object _ => (value.member? key).isSome
  | .array items => items.contains (.text key)
  | .text content => content = key
  | _ => false

def integer (value : Json) (key : String) : Except SqlError (Option Int) :=
  match value.text? key with
  | none => .ok none
  | some content =>
      match castInt content with
      | some parsed =>
          if -2 ^ 31 ≤ parsed ∧ parsed < 2 ^ 31 then .ok (some parsed) else .error .castFailure
      | none => .error .castFailure

def elements : Option Json → Except SqlError (List Json)
  | none => .ok []
  | some (.array items) => .ok items
  | some _ => .error .castFailure

def without (keys : List String) : Json → Except SqlError Json
  | .object members => .ok (.object (members.filter fun entry => ¬ keys.contains entry.1))
  | .array items => .ok (.array (items.filter fun item => ¬ keys.any fun key => item = .text key))
  | _ => .error .castFailure

end Json

/-! The rows of the published tables; `status` and the dates are left out. -/

structure VersionRow where
  flowName : String
  version : Int
  isActive : Bool
  map : Json
deriving DecidableEq

structure StepRow where
  flowName : String
  flowVersion : Int
  stepKey : String
  stepType : StepType
  params : Json
  sortOrder : Nat
deriving DecidableEq

structure TaskRow where
  flowName : String
  flowVersion : Int
  stepKey : String
  service : String
  module : String
  action : String
  actionVersion : Int
  requiredPolicy : Json
  timeoutMs : Int
  retry : Json
  inputMapping : Json
  inputConstants : Json
deriving DecidableEq

structure Flows where
  names : List String := []
  versions : List VersionRow := []
  steps : List StepRow := []
  tasks : List TaskRow := []
  transitions : List TransitionDefinition := []
deriving DecidableEq

abbrev FlowStatement := Flows → Except SqlError Flows

/-- The tables as a block of statements leaves them, and the error it stops at. -/
def runBlock : List FlowStatement → Flows → Flows × Option SqlError
  | [], flows => (flows, none)
  | statement :: rest, flows =>
      match statement flows with
      | .ok later => runBlock rest later
      | .error error => (flows, some error)

namespace Flows

def version? (flows : Flows) (flow : Option String) (version : Option Int) : Option VersionRow :=
  flows.versions.find? fun row => some row.flowName = flow ∧ some row.version = version

def hasStep (flows : Flows) (flow : String) (version : Int) (key : String) : Bool :=
  flows.steps.any fun row => row.flowName = flow ∧ row.flowVersion = version ∧ row.stepKey = key

def insertFlowDefinition (flow : Option String) : FlowStatement := fun flows =>
  match flow with
  | none => .error .notNullViolation
  | some name =>
      .ok (if flows.names.contains name then flows else { flows with names := flows.names ++ [name] })

def insertFlowVersion (flow : Option String) (version : Option Int) (map : Json) : FlowStatement :=
  fun flows =>
    match flow, version with
    | some name, some number =>
        if (flows.version? (some name) (some number)).isSome then .error .uniqueViolation
        else .ok { flows with versions := flows.versions ++ [⟨name, number, false, map⟩] }
    | _, _ => .error .notNullViolation

def insertStepDefinition (flow : String) (version : Int) (step : Json) (sortOrder : Nat) :
    FlowStatement := fun flows =>
  match step.without ["key", "type", "task"] with
  | .error error => .error error
  | .ok params =>
      match step.text? "key", step.text? "type" with
      | some stepKey, some type =>
          match StepType.ofText? (upper type) with
          | none => .error .checkViolation
          | some stepType =>
              if flows.hasStep flow version stepKey then .error .uniqueViolation
              else
                .ok { flows with
                  steps := flows.steps ++ [⟨flow, version, stepKey, stepType, params, sortOrder⟩] }
      | _, _ => .error .notNullViolation

def taskRow (flow : String) (version : Int) (stepKey : Option String) (task : Json)
    (actionVersion timeoutMs : Option Int) : Option TaskRow := do
  some {
    flowName := flow, flowVersion := version, stepKey := ← stepKey
    service := ← task.text? "service", module := ← task.text? "module"
    action := ← task.text? "action", actionVersion := ← actionVersion
    requiredPolicy := ← task.member? "required_policy", timeoutMs := ← timeoutMs
    retry := ← task.member? "retry", inputMapping := ← task.member? "input_mapping"
    inputConstants := (task.member? "input_constants").getD (.object []) }

def insertTaskDefinition (flow : String) (version : Int) (step : Json) : FlowStatement :=
  fun flows => do
    let task := (step.member? "task").getD .null
    let actionVersion ← task.integer "action_version"
    let timeoutMs ← task.integer "timeout_ms"
    match taskRow flow version (step.text? "key") task actionVersion timeoutMs with
    | none => .error .notNullViolation
    | some row =>
        if row.service ≠ "postgres" ∨ row.timeoutMs < 1 ∨ 30000 < row.timeoutMs then
          .error .checkViolation
        else if flows.tasks.any fun other => other.flowName = flow ∧ other.flowVersion = version ∧
            other.stepKey = row.stepKey then .error .uniqueViolation
        else .ok { flows with tasks := flows.tasks ++ [row] }

def insertTransitionDefinition (flow : String) (version : Int) (transition : Json) :
    FlowStatement := fun flows =>
  match transition.text? "from", transition.text? "outcome", transition.text? "to" with
  | some source, some outcome, some target =>
      if flows.transitions.any fun row => row.flowName = flow ∧ row.flowVersion = version ∧
          row.fromStepKey = source ∧ row.outcome = outcome then .error .uniqueViolation
      else if ¬ flows.hasStep flow version source then .error .foreignKeyViolation
      else
        .ok { flows with
          transitions := flows.transitions ++ [⟨flow, version, source, outcome, target⟩] }
  | _, _, _ => .error .notNullViolation

def isAutomatic (step : Json) : Bool := (step.text? "type").map upper = some "AUTOMATIC"

def stepStatements (flow : String) (version : Int) (entry : Json × Nat) : List FlowStatement :=
  insertStepDefinition flow version entry.1 entry.2 ::
    if isAutomatic entry.1 then [insertTaskDefinition flow version entry.1] else []

def loop (statements : List Json → List FlowStatement) (value : Option Json) :
    List FlowStatement :=
  match Json.elements value with
  | .error error => [fun _ => .error error]
  | .ok items => statements items

def publishStatements (map : Json) (flow : Option String) (version : Option Int) :
    List FlowStatement :=
  [insertFlowDefinition flow, insertFlowVersion flow version map] ++
    -- the two INSERTs fail where a key is NULL, so the loops see the values
    loop (fun steps => (steps.zipIdx 1).flatMap (stepStatements (flow.getD "") (version.getD 0)))
      (map.member? "steps") ++
    loop (fun transitions =>
      transitions.map (insertTransitionDefinition (flow.getD "") (version.getD 0)))
      (map.member? "transitions")

/-- The test `publish_flow` starts with; a comparison with NULL does not raise. -/
def breaksContract (map : Json) (flow : Option String) (version : Option Int) : Bool :=
  ¬ ["contract_version", "flow_name", "version", "start_step", "steps", "transitions"].all
      map.hasKey ∨
    (map.text? "contract_version").any (· ≠ "course-1") ∨ flow.any (fun name => ¬ isFlowName name) ∨
    version.any (· < 1)

def replyExisting (existing : VersionRow) (map : Json) : Except PublishError PublishReply :=
  if existing.map.same map then .ok .exists else .error .manifestConflict

def publishFlow (flows : Flows) (map : Json) : Flows × Except PublishError PublishReply :=
  let flow := map.text? "flow_name"
  match map.integer "version" with
  | .error error => (flows, .error (.raised error))
  | .ok version =>
      if breaksContract map flow version then (flows, .error .manifestInvalid)
      else
        match flows.version? flow version with
        | some existing => (flows, replyExisting existing map)
        | none =>
            match runBlock (publishStatements map flow version) flows with
            | (later, none) => (later, .ok .published)
            | (_, some .uniqueViolation) =>
                match flows.version? flow version with
                | some existing => (flows, replyExisting existing map)
                | none => (flows, .error (.raised .uniqueViolation))
            | (_, some _) => (flows, .error .manifestInvalid)

/-! Activation. -/

inductive FlowActivation
  | activated | flowInvalid | flowNotFound
  | raised (error : PublishError)
deriving DecidableEq

def assertFlowVersionImmutable (old new : VersionRow) : Except PublishError VersionRow :=
  if new.flowName ≠ old.flowName ∨ new.version ≠ old.version ∨ ¬ new.map.same old.map then
    .error .manifestConflict
  else .ok new

def updateVersions (chosen : VersionRow → Bool) (change : VersionRow → VersionRow) (flows : Flows) :
    Except PublishError Flows := do
  let versions ← flows.versions.mapM fun row =>
    if chosen row then assertFlowVersionImmutable row (change row) else .ok row
  if ((versions.filter VersionRow.isActive).map VersionRow.flowName).Nodup then
    .ok { flows with versions }
  else .error (.raised .uniqueViolation)

def activateFlow (flows : Flows) (flow : String) (version : Int) : Flows × FlowActivation :=
  if ¬ isFlowName flow ∨ version < 1 then (flows, .flowInvalid)
  else
    match flows.version? (some flow) (some version) with
    | none => (flows, .flowNotFound)
    | some _ =>
        match (do
          let cleared ← flows.updateVersions (fun row => row.flowName = flow ∧ row.isActive)
            fun row => { row with isActive := false }
          cleared.updateVersions (fun row => row.flowName = flow ∧ row.version = version)
            fun row => { row with isActive := true }) with
        | .ok later => (later, .activated)
        | .error error => (flows, .raised error)

end Flows

/-! The definitions as the engine reads them; a member of another type reads as nothing. -/

namespace Json

/-- The cast from jsonb rounds. -/
def integers : List Json → List Int
  | [] => []
  | .number value :: rest => value.rounded :: integers rest
  | _ :: rest => integers rest

def items : Json → List Json
  | .array items => items
  | _ => []

def members : Json → List (String × Json)
  | .object members => members
  | _ => []

def stepParams (params : Json) : StepParams :=
  ⟨params.text? "signal_type", params.text? "outcome", (params.member? "allowed_outcomes").map keys⟩

def retry (value : Json) : Retry :=
  ⟨value.int? "max_attempts", integers ((value.member? "delays_ms").getD .null).items⟩

def pointers (value : Json) : List (String × String) :=
  value.members.filterMap fun entry =>
    match entry.2 with
    | .text pointer => some (entry.1, pointer)
    | _ => none

def flowTask (value : Json) : FlowTask where
  service := (value.text? "service").getD ""
  module := (value.text? "module").getD ""
  action := (value.text? "action").getD ""
  actionVersion := (value.int? "action_version").getD 0
  requiredPolicy := ((value.member? "required_policy").getD .null).keys
  timeoutMs := (value.int? "timeout_ms").getD 0
  retry := ((value.member? "retry").getD .null).retry
  inputMapping := ((value.member? "input_mapping").getD .null).pointers
  inputConstants := ((value.member? "input_constants").getD .null).members

def flowStep (value : Json) : FlowStep where
  key := (value.text? "key").getD ""
  type := (value.text? "type").getD ""
  task := (value.member? "task").map flowTask
  signalType := value.text? "signal_type"
  outcome := value.text? "outcome"
  allowedOutcomes := (value.member? "allowed_outcomes").map keys

def flowTransition (value : Json) : FlowTransition :=
  ⟨(value.text? "from").getD "", (value.text? "outcome").getD "", (value.text? "to").getD ""⟩

def flowMap (value : Json) : FlowMap where
  contractVersion := (value.text? "contract_version").getD ""
  flowName := (value.text? "flow_name").getD ""
  version := (value.int? "version").getD 0
  startStep := (value.text? "start_step").getD ""
  steps := ((value.member? "steps").getD .null).items.map flowStep
  transitions := ((value.member? "transitions").getD .null).items.map flowTransition

end Json

def VersionRow.flowVersion (row : VersionRow) : FlowVersion :=
  ⟨row.flowName, row.version, row.isActive, row.map.flowMap⟩

def StepRow.definition (row : StepRow) : StepDefinition :=
  ⟨row.flowName, row.flowVersion, row.stepKey, row.stepType, row.params.stepParams⟩

def TaskRow.definition (row : TaskRow) : TaskDefinition where
  flowName := row.flowName
  flowVersion := row.flowVersion
  stepKey := row.stepKey
  task := {
    service := row.service, module := row.module, action := row.action
    actionVersion := row.actionVersion, requiredPolicy := row.requiredPolicy.keys
    timeoutMs := row.timeoutMs, retry := row.retry.retry
    inputMapping := row.inputMapping.pointers, inputConstants := row.inputConstants.members }

def Flows.config (flows : Flows) (base : Config) : Config :=
  { base with
    flowVersions := flows.versions.map VersionRow.flowVersion
    stepDefinitions := flows.steps.map StepRow.definition
    transitionDefinitions := flows.transitions
    taskDefinitions := flows.tasks.map TaskRow.definition }

end PaymentWorkflow
