import PaymentWorkflow.ExecutorCore

/-!
`WorkerLoop.RunAsync` and `ProcessJobAsync`, from the text `claim_jobs` returns to the calls a job
ends with. The failpoints, which stop the worker on purpose, are left out.
-/

namespace PaymentWorkflow

open JsonElement

def StepType.text : StepType → String
  | .automatic => "AUTOMATIC"
  | .waitSignal => "WAIT_SIGNAL"
  | .manual => "MANUAL"
  | .endStep => "END"

def Json.int (value : Int) : Json := .number (Decimal.ofInt value)

def Retry.document (retry : Retry) : Json :=
  .object ((retry.maxAttempts.map fun count => ("maxAttempts", Json.int count)).toList ++
    [("delaysMs", .array (retry.delaysMs.map .int))])

def FlowTask.document (task : FlowTask) : Json :=
  .object [
    ("service", .text task.service), ("module", .text task.module), ("action", .text task.action),
    ("actionVersion", .int task.actionVersion),
    ("requiredPolicy", .array (task.requiredPolicy.map .text)),
    ("timeoutMs", .int task.timeoutMs), ("retry", task.retry.document),
    ("inputMapping", .object (task.inputMapping.map fun entry => (entry.1, .text entry.2))),
    ("inputConstants", .object task.inputConstants)]

def ClaimedJob.document (claimed : ClaimedJob) : Json :=
  .object [
    ("jobId", .text (uuidText claimed.jobId)), ("processId", .text (uuidText claimed.processId)),
    ("stepInstanceId", .text (uuidText claimed.stepInstanceId)),
    ("executionId", .text (uuidText claimed.executionId)),
    ("leaseVersion", .int claimed.leaseVersion), ("attemptId", .text (uuidText claimed.attemptId)),
    ("attemptNumber", .int claimed.attemptNumber), ("owner", .text claimed.owner),
    ("flowName", .text claimed.flowName), ("flowVersion", .int claimed.flowVersion),
    ("stepKey", .text claimed.stepKey), ("stepType", .text claimed.stepType.text),
    ("processData", claimed.processData), ("task", claimed.task.document),
    ("action", .object [
      ("outcomes", .array (claimed.outcomes.map .text)),
      ("requestSchema", claimed.requestSchema), ("responseSchema", claimed.responseSchema)])]

def JsonNode.int (value : Int) : Except Thrown Int :=
  if -2 ^ 31 ≤ value ∧ value < 2 ^ 31 then .ok value else .error .invalidOperation

inductive JobCall
  | finishJob (jobId : Nat) (owner : String) (leaseVersion : Nat) (outcome : String) (result : Json)
  | failJob (jobId : Nat) (owner : String) (leaseVersion : Nat) (code : String) (retryable : Bool)
deriving DecidableEq

inductive JobException
  | thrown (exception : Thrown)
  | indexOutOfRange
deriving DecidableEq

structure JobAnswers where
  begin : Option Exception := none
  invoked : Except Exception Json
  finish : Option Exception := none
  commit : Option Exception := none

namespace ClaimedJob

variable (packages : Packages) (claimed : ClaimedJob) (answers : JobAnswers)

def failJobAsync (code : String) (retryable : Bool) : JobCall :=
  .failJob claimed.jobId claimed.owner claimed.leaseVersion code retryable

def finishJobAsync (outcome : String) (result : Json) : JobCall :=
  .finishJob claimed.jobId claimed.owner claimed.leaseVersion outcome result

def caught : Exception → List JobCall
  | .operationCanceled => [claimed.failJobAsync "workflow.timeout" true]
  | .npgsql => []

def checkPayload (payload : Json) : Except Thrown (Option String) :=
  if claimed.requestSchema = .null then .ok (some "workflow.contract_invalid")
  else
    match packages.evaluate false claimed.requestSchema payload with
    | .unloadable => .ok (some "workflow.contract_invalid")
    | .thrown => .error .invalidOperation
    | .evaluated valid => .ok (if valid then none else some "workflow.payload_invalid")

def invokeAction : Except JobException (List JobCall) :=
  match answers.begin, answers.invoked with
  | some exception, _ | none, .error exception => .ok (claimed.caught exception)
  | none, .ok reply =>
      match checkJobEnvelope packages claimed reply with
      | .error exception => .error (.thrown exception)
      | .ok (.failed code retryable) => .ok [claimed.failJobAsync code retryable]
      | .ok (.accepted outcome result) =>
          .ok (claimed.finishJobAsync outcome result ::
            ((answers.finish <|> answers.commit).map claimed.caught).getD [])

def runPayload (payload : Json) : Except JobException (List JobCall) :=
  match claimed.checkPayload packages payload with
  | .error exception => .error (.thrown exception)
  | .ok (some code) => .ok [claimed.failJobAsync code false]
  | .ok none => claimed.invokeAction packages answers

def runTask : Except JobException (List JobCall) :=
  match buildPayload claimed.processData claimed.task with
  | .error .thrown => .error .indexOutOfRange
  | .error _ => .ok [claimed.failJobAsync "workflow.mapping_missing" false]
  | .ok payload => claimed.runPayload packages answers payload

/-- `ProcessJobAsync`, as the calls of `finish_job` and `fail_job` it makes. -/
def processJobAsync : Except JobException (List JobCall) :=
  match JsonNode.int claimed.task.actionVersion, JsonNode.int claimed.task.timeoutMs with
  | .ok actionVersion, .ok _ =>
      if claimed.task.module = "" ∨ claimed.task.action = "" ∨ actionVersion < 1 then
        .ok [claimed.failJobAsync "workflow.task_invalid" false]
      else claimed.runTask packages answers
  | .error exception, _ | _, .error exception => .error (.thrown exception)

end ClaimedJob

/-- A round of `RunAsync` over a claimed batch. A batch that `ClaimAsync` cannot parse is logged
and dropped; an exception of one job does not keep the next from its turn. -/
def runAsync (packages : Packages) (answers : ClaimedJob → JobAnswers) (batch : List ClaimedJob) :
    List (ClaimedJob × Except JobException (List JobCall)) :=
  match parseDocument (.array (batch.map ClaimedJob.document)) with
  | none => []
  | some _ => batch.map fun claimed => (claimed, claimed.processJobAsync packages (answers claimed))

end PaymentWorkflow
