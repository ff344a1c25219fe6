import PaymentWorkflow.EngineCore
import PaymentWorkflow.JsonNumber

/-! `workflow.publish_flow`, over the maps of the schema as they are written, and
`workflow.activate_flow`. -/

namespace PaymentWorkflow

def upper (content : String) : String := String.ofList (content.toList.map Char.toUpper)

def StepType.ofText? : String → Option StepType
  | "AUTOMATIC" => some .automatic
  | "WAIT_SIGNAL" => some .waitSignal
  | "MANUAL" => some .manual
  | "END" => some .endStep
  | _ => none

def FlowStep.params (step : FlowStep) : StepParams :=
  ⟨step.signalType, step.outcome, step.allowedOutcomes⟩

def WrittenInt.integer (number : WrittenInt) : Except SqlError Int :=
  match number.literal.integer? with
  | some value => .ok value
  | none => .error .castFailure

def insertStepDefinition (flowName : String) (version : Int) (config : Config)
    (step : FlowStep WrittenInt) : Except SqlError Config :=
  match StepType.ofText? (upper step.type) with
  | none => .error .checkViolation
  | some stepType =>
      if (config.stepDefinition? flowName version step.key).isSome then .error .uniqueViolation
      else
        let inserted := { config with
          stepDefinitions := config.stepDefinitions ++ [{
            flowName, flowVersion := version, stepKey := step.key, stepType
            params := (step.map WrittenInt.value).params }] }
        if stepType ≠ .automatic then .ok inserted
        else
          match step.task with
          | none => .error .notNullViolation
          | some task => do
              let actionVersion ← task.actionVersion.integer
              let timeoutMs ← task.timeoutMs.integer
              if task.service ≠ "postgres" ∨ timeoutMs < 1 ∨ 30000 < timeoutMs then
                .error .checkViolation
              else if (config.task? flowName version step.key).isSome then .error .uniqueViolation
              else
                .ok { inserted with
                  taskDefinitions := config.taskDefinitions ++ [{
                    flowName, flowVersion := version, stepKey := step.key
                    task := { task.map WrittenInt.value with actionVersion, timeoutMs } }] }

def insertTransitionDefinition (flowName : String) (version : Int) (config : Config)
    (transition : FlowTransition) : Except SqlError Config :=
  if (config.transition? flowName version (some transition.fromStep)
      (some transition.outcome)).isSome then .error .uniqueViolation
  else if (config.stepDefinition? flowName version transition.fromStep).isNone then
    .error .foreignKeyViolation
  else
    .ok { config with
      transitionDefinitions := config.transitionDefinitions ++ [{
        flowName, flowVersion := version
        fromStepKey := transition.fromStep, outcome := transition.outcome
        toStepKey := transition.toStep }] }

def insertDefinitions (config : Config) (map : FlowMap WrittenInt) (version : Int) :
    Except SqlError Config := do
  let versioned := { config with
    flowVersions :=
      config.flowVersions ++ [⟨map.flowName, version, false, map.map WrittenInt.value⟩] }
  let stepped ← map.steps.foldlM (insertStepDefinition map.flowName version) versioned
  map.transitions.foldlM (insertTransitionDefinition map.flowName version) stepped

def Config.flowVersion? (config : Config) (flowName : String) (version : Int) :
    Option FlowVersion :=
  config.flowVersions.find? fun row => row.flowName = flowName ∧ row.version = version

inductive PublishError
  | manifestInvalid
  | manifestConflict
  | raised (error : SqlError)
deriving DecidableEq

inductive PublishReply
  | published | exists
deriving DecidableEq

/-! `=` on the maps: jsonb compares the numbers in the constants by value. -/

def FlowTask.same (left right : FlowTask) : Bool :=
  { left with inputConstants := [] } = { right with inputConstants := [] } &&
    Json.sameMembers left.inputConstants right.inputConstants

def FlowStep.same (left right : FlowStep) : Bool :=
  ({ left with task := none } : FlowStep) = { right with task := none } &&
    match left.task, right.task with
    | some leftTask, some rightTask => leftTask.same rightTask
    | none, none => true
    | _, _ => false

def FlowMap.same (left right : FlowMap) : Bool :=
  { left with steps := [] } = { right with steps := [] } &&
    left.steps.length = right.steps.length &&
      (left.steps.zip right.steps).all fun pair => pair.1.same pair.2

def publishFlow (config : Config) (map : FlowMap WrittenInt) :
    Except PublishError (Config × PublishReply) :=
  match map.version.integer with
  -- the cast stands before the block of the handler
  | .error error => .error (.raised error)
  | .ok version =>
      if map.contractVersion ≠ "course-1" ∨ ¬ isFlowName map.flowName ∨ version < 1 then
        .error .manifestInvalid
      else
        match config.flowVersion? map.flowName version with
        | some existing =>
            if existing.map.same (map.map WrittenInt.value) then .ok (config, .exists)
            else .error .manifestConflict
        | none =>
            match insertDefinitions config map version with
            | .ok published => .ok (published, .published)
            -- the rows of this version are rolled back before the handler looks for them
            | .error .uniqueViolation => .error (.raised .uniqueViolation)
            | .error _ => .error .manifestInvalid

inductive ActivateError
  | flowInvalid | flowNotFound
deriving DecidableEq

def activateFlow (config : Config) (flowName : String) (version : Int) :
    Except ActivateError Config :=
  if ¬ isFlowName flowName ∨ version < 1 then .error .flowInvalid
  else
    match config.flowVersion? flowName version with
    | none => .error .flowNotFound
    | some _ =>
        .ok { config with
          flowVersions := config.flowVersions.map fun row =>
            if row.flowName = flowName then
              { row with isActive := row.version = version }
            else row }

end PaymentWorkflow
