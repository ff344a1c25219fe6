import PaymentWorkflow.JsonCore
import PaymentWorkflow.Table
import Mathlib.Tactic.Simps.Basic

/-!
The tables of the schemas workflow, delivery, payment and api, and the flow maps that are
published into them. A column no modelled function reads is left out.
-/

namespace PaymentWorkflow

/-- Microseconds, as `timestamptz` counts them. -/
abbrev Time := Int

def milliseconds (count : Int) : Time := count * 1000

/-! Flow maps, as the JSON Schema course-1 shapes them. The definitions hold their numbers by value,
the files as they are written. -/

structure Retry (Number : Type := Int) where
  maxAttempts : Option Number
  delaysMs : List Number
deriving DecidableEq

structure FlowTask (Number : Type := Int) where
  service : String
  module : String
  action : String
  actionVersion : Number
  requiredPolicy : List String
  timeoutMs : Number
  retry : Retry Number
  inputMapping : List (String × String)
  inputConstants : List (String × Json)
deriving DecidableEq

structure FlowStep (Number : Type := Int) where
  key : String
  type : String
  task : Option (FlowTask Number) := none
  signalType : Option String := none
  outcome : Option String := none
  allowedOutcomes : Option (List String) := none
deriving DecidableEq

structure FlowTransition where
  fromStep : String
  outcome : String
  toStep : String
deriving DecidableEq

structure FlowMap (Number : Type := Int) where
  contractVersion : String
  flowName : String
  version : Number
  startStep : String
  steps : List (FlowStep Number)
  transitions : List FlowTransition
deriving DecidableEq

section Values

variable {Number Value : Type} (read : Number → Value)

def Retry.map (retry : Retry Number) : Retry Value :=
  ⟨retry.maxAttempts.map read, retry.delaysMs.map read⟩

def FlowTask.map (task : FlowTask Number) : FlowTask Value where
  service := task.service
  module := task.module
  action := task.action
  actionVersion := read task.actionVersion
  requiredPolicy := task.requiredPolicy
  timeoutMs := read task.timeoutMs
  retry := task.retry.map read
  inputMapping := task.inputMapping
  inputConstants := task.inputConstants

def FlowStep.map (step : FlowStep Number) : FlowStep Value where
  key := step.key
  type := step.type
  task := step.task.map fun task => task.map read
  signalType := step.signalType
  outcome := step.outcome
  allowedOutcomes := step.allowedOutcomes

def FlowMap.map (map : FlowMap Number) : FlowMap Value where
  contractVersion := map.contractVersion
  flowName := map.flowName
  version := read map.version
  startStep := map.startStep
  steps := map.steps.map fun step => step.map read
  transitions := map.transitions

end Values

/-! Published definitions. -/

inductive StepType
  | automatic | waitSignal | manual | endStep
deriving DecidableEq

structure FlowVersion where
  flowName : String
  version : Int
  isActive : Bool
  map : FlowMap
deriving DecidableEq

structure StepParams where
  signalType : Option String
  outcome : Option String
  allowedOutcomes : Option (List String)
deriving DecidableEq

structure StepDefinition where
  flowName : String
  flowVersion : Int
  stepKey : String
  stepType : StepType
  params : StepParams
deriving DecidableEq

structure TransitionDefinition where
  flowName : String
  flowVersion : Int
  fromStepKey : String
  outcome : String
  toStepKey : String
deriving DecidableEq

structure TaskDefinition where
  flowName : String
  flowVersion : Int
  stepKey : String
  task : FlowTask
deriving DecidableEq

structure ActionRow where
  module : String
  action : String
  version : Int
  targetSchema : String
  targetFunction : String
  requestSchema : Json := .object []
  responseSchema : Json := .object []
  outcomes : List String
  requiredPolicy : List String
  enabled : Bool
  isDefault : Bool
deriving DecidableEq

inductive OperationKind
  | paymentExecution | paymentApproval
deriving DecidableEq

structure FlowBinding where
  operationKind : OperationKind
  flowName : String
deriving DecidableEq

structure OutboxPolicy where
  maxAttempts : Int
  delaysMs : List Int
deriving DecidableEq

structure Config where
  flowVersions : List FlowVersion
  stepDefinitions : List StepDefinition
  transitionDefinitions : List TransitionDefinition
  taskDefinitions : List TaskDefinition
  actionCatalog : List ActionRow
  flowBindings : List FlowBinding
  outboxPolicy : Option OutboxPolicy
deriving DecidableEq

/-! The running workflow. -/

inductive ProcessState
  | created | running | waitingSignal | waitingManual | completed | failed
deriving DecidableEq

structure Process where
  id : Nat
  flowName : String
  flowVersion : Int
  businessKey : String
  state : ProcessState
  currentStepKey : Option String
  data : Json
deriving DecidableEq

inductive StepState
  | pending | ready | running | waiting | completed | failed
deriving DecidableEq

structure StepInstance where
  id : Nat
  processId : Nat
  stepKey : String
  stepType : StepType
  state : StepState
  outcome : Option String
  enteredAt : Time
deriving DecidableEq

inductive JobState
  | ready | leased | retryWait | succeeded | dead
deriving DecidableEq

structure Job where
  id : Nat
  processId : Nat
  stepInstanceId : Nat
  executionId : Nat
  state : JobState
  leaseOwner : Option String
  leaseVersion : Nat
  leaseUntil : Option Time
  attemptCount : Nat
  nextAttemptAt : Option Time
  createdAt : Time
deriving DecidableEq

inductive AttemptStatus
  | running | succeeded | failed | stale
deriving DecidableEq

structure Attempt where
  id : Nat
  jobId : Nat
  executionId : Nat
  leaseVersion : Nat
  attemptNumber : Nat
  status : AttemptStatus
  outcome : Option String
  errorCode : Option String
deriving DecidableEq

inductive SignalStatus
  | accepted | applied
deriving DecidableEq

structure Signal where
  messageId : String
  processId : Nat
  signalType : String
  bodyHash : String
  status : SignalStatus
  receivedAt : Time
deriving DecidableEq

inductive EventType
  | processStarted | stepEntered | stepCompleted | processCompleted
  | signalAccepted | signalApplied | manualDecision | taskFailed
deriving DecidableEq

structure WorkflowEvent where
  processId : Nat
  stepInstanceId : Option Nat
  eventType : EventType
deriving DecidableEq

structure Workflow where
  processes : List Process
  steps : List StepInstance
  jobs : List Job
  attempts : List Attempt
  signals : List Signal
  events : List WorkflowEvent
deriving DecidableEq

/-! Delivery to the provider and its receipts. -/

inductive ExternalState
  | created | sent | confirmed
deriving DecidableEq

structure ExternalRequest where
  id : String
  operationId : Nat
  correlationId : Nat
  amount : Int
  currency : String
  state : ExternalState
deriving DecidableEq

inductive OutboxState
  | pending | leased | retryWait | delivered | dead | confirmed
deriving DecidableEq

structure OutboxRow where
  id : Nat
  externalRequestId : String
  correlationId : Nat
  state : OutboxState
  leaseOwner : Option String
  leaseVersion : Nat
  leaseUntil : Option Time
  attemptCount : Nat
  nextAttemptAt : Option Time
  lastErrorCode : Option String
  createdAt : Time
deriving DecidableEq

inductive ReceiptOutcome
  | completed | rejected
deriving DecidableEq

structure Receipt where
  messageId : String
  externalRequestId : String
  outcome : ReceiptOutcome
  bodyHash : String
  body : Json
  receivedAt : Time
  appliedAt : Option Time
deriving DecidableEq

inductive InboxState
  | received | applied | conflict
deriving DecidableEq

structure InboxRow where
  messageId : String
  externalRequestId : String
  processId : Nat
  signalType : String
  bodyHash : String
  payload : Json
  state : InboxState
  receivedAt : Time
deriving DecidableEq

structure Delivery where
  externalRequests : List ExternalRequest
  outbox : List OutboxRow
  receipts : List Receipt
  inbox : List InboxRow
deriving DecidableEq

/-! Payment operations. -/

inductive OperationStatus
  | created | processing | completed | rejected
deriving DecidableEq

/-- `numeric(20,2)` amounts are counted in hundredths. -/
structure Operation where
  id : Nat
  requestId : String
  principal : String
  operationKind : OperationKind
  amount : Int
  currency : String
  status : OperationStatus
  processId : Option Nat
deriving DecidableEq

inductive OperationEventType
  | created | submitted | completed | rejected
deriving DecidableEq

structure OperationEvent where
  operationId : Nat
  eventType : OperationEventType
  payloadHash : String
  occurredAt : Time
deriving DecidableEq

inductive DecisionSource
  | limitRule | manual
deriving DecidableEq

inductive DecisionOutcome
  | approved | rejected
deriving DecidableEq

structure Decision where
  id : Nat
  processId : Nat
  stepInstanceId : Nat
  source : DecisionSource
  principal : Option String
  reasonHash : Option String
  outcome : DecisionOutcome
  ruleVersion : Option String
deriving DecidableEq

structure Payment where
  operations : List Operation
  operationEvents : List OperationEvent
  decisions : List Decision
deriving DecidableEq

structure Dispatch where
  correlationId : Nat
  requestId : String
  module : String
  action : String
  version : Int
  principal : String
  outcome : Option String
deriving DecidableEq

/-- The database. `clock` is every reading `clock_timestamp()` will give, `ticks` how many
of them have been taken, `nextId` the next `gen_random_uuid()`, and `digest` the SHA-256
hex digest of a jsonb text. -/
structure Db where
  config : Config
  workflow : Workflow
  delivery : Delivery
  payment : Payment
  dispatches : List Dispatch
  nextId : Nat
  ticks : Nat
  clock : Nat → Time
  digest : String → String

namespace Config

def stepDefinition? (config : Config) (flowName : String) (flowVersion : Int) (stepKey : String) :
    Option StepDefinition :=
  config.stepDefinitions.find? fun row =>
    row.flowName = flowName ∧ row.flowVersion = flowVersion ∧ row.stepKey = stepKey

def transition? (config : Config) (flowName : String) (flowVersion : Int)
    (fromStepKey outcome : Option String) : Option TransitionDefinition :=
  config.transitionDefinitions.find? fun row =>
    row.flowName = flowName ∧ row.flowVersion = flowVersion ∧
      some row.fromStepKey = fromStepKey ∧ some row.outcome = outcome

def task? (config : Config) (flowName : String) (flowVersion : Int) (stepKey : String) :
    Option TaskDefinition :=
  config.taskDefinitions.find? fun row =>
    row.flowName = flowName ∧ row.flowVersion = flowVersion ∧ row.stepKey = stepKey

def action? (config : Config) (module action : String) (version : Int) : Option ActionRow :=
  config.actionCatalog.find? fun row =>
    row.module = module ∧ row.action = action ∧ row.version = version

def defaultAction? (config : Config) (module action : String) : Option ActionRow :=
  config.actionCatalog.find? fun row =>
    row.module = module ∧ row.action = action ∧ row.isDefault

end Config

namespace Workflow

def process? (workflow : Workflow) (id : Nat) : Option Process :=
  Table.lookup Process.id id workflow.processes

def step? (workflow : Workflow) (id : Nat) : Option StepInstance :=
  Table.lookup StepInstance.id id workflow.steps

def job? (workflow : Workflow) (id : Nat) : Option Job :=
  Table.lookup Job.id id workflow.jobs

def signal? (workflow : Workflow) (messageId : String) : Option Signal :=
  Table.lookup Signal.messageId messageId workflow.signals

end Workflow

namespace Db

def now (db : Db) : Time := db.clock db.ticks

@[simps] def tick (db : Db) : Db := { db with ticks := db.ticks + 1 }

@[simps] def updateProcess (db : Db) (id : Nat) (change : Process → Process) : Db :=
  { db with workflow := { db.workflow with
      processes := Table.update (fun row => row.id = id) change db.workflow.processes } }

@[simps] def updateStep (db : Db) (id : Nat) (change : StepInstance → StepInstance) : Db :=
  { db with workflow := { db.workflow with
      steps := Table.update (fun row => row.id = id) change db.workflow.steps } }

@[simps] def updateJob (db : Db) (id : Nat) (change : Job → Job) : Db :=
  { db with workflow := { db.workflow with
      jobs := Table.update (fun row => row.id = id) change db.workflow.jobs } }

@[simps] def updateAttempts (db : Db) (matched : Attempt → Bool) (change : Attempt → Attempt) : Db :=
  { db with workflow := { db.workflow with
      attempts := Table.update matched change db.workflow.attempts } }

@[simps] def updateSignal (db : Db) (messageId : String) (change : Signal → Signal) : Db :=
  { db with workflow := { db.workflow with
      signals := Table.update (fun row => row.messageId = messageId) change db.workflow.signals } }

@[simps] def insertEvent (db : Db) (processId : Nat) (stepInstanceId : Option Nat)
    (eventType : EventType) : Db :=
  { db with workflow := { db.workflow with
      events := db.workflow.events ++ [⟨processId, stepInstanceId, eventType⟩] } }

end Db

end PaymentWorkflow
