import PaymentWorkflow.InvokerCore
import PaymentWorkflow.SystemCore

/-!
The transaction of `WorkerLoop.ProcessJobAsync` around an arbitrary target function: the tests
of the envelope, `finish_job` and the commit.
-/

namespace PaymentWorkflow

namespace JsonNode

open JsonElement

def text (members : List (String × Json)) (name : String) : Except Thrown (Option String) :=
  match (Json.object members).member? name with
  | none | some .null => .ok none
  | some (.text content) => .ok (some content)
  | some _ => .error .invalidOperation

def flag (members : List (String × Json)) (name : String) : Except Thrown Bool :=
  match (Json.object members).member? name with
  | none | some .null => .ok false
  | some (.bool value) => .ok value
  | some _ => .error .invalidOperation

def member (members : List (String × Json)) (name : String) : Option Json :=
  ((Json.object members).member? name).bind JsonPointer.nonNull

end JsonNode

inductive JobVerdict
  | failed (code : String) (retryable : Bool)
  | accepted (outcome : String) (result : Json)
deriving DecidableEq

def checkResult (packages : Packages) (schema : Json) (outcome : String) (result : Option Json) :
    Except JsonElement.Thrown JobVerdict :=
  if schema = .null then .ok (.failed "workflow.contract_invalid" false)
  else
    match packages.evaluate false schema (result.getD .null) with
    | .unloadable => .ok (.failed "workflow.contract_invalid" false)
    | .thrown =>
        if result.isNone then .ok (.failed "workflow.response_invalid" false)
        else .error .invalidOperation
    | .evaluated valid =>
        match result, valid with
        | some value, true => .ok (.accepted outcome value)
        | _, _ => .ok (.failed "workflow.response_invalid" false)

def checkJobEnvelope (packages : Packages) (claimed : ClaimedJob) (reply : Json) :
    Except JsonElement.Thrown JobVerdict :=
  match parseDocument reply with
  | none => .ok (.failed "workflow.contract_invalid" false)
  | some (.object members) => do
      if (← JsonNode.text members "status") = some "error" then
        let retryable ← JsonNode.flag members "retryable"
        let code ← JsonNode.text members "code"
        .ok (.failed (code.getD "workflow.unknown_error") retryable)
      else
        match ← JsonNode.text members "outcome" with
        | none => .ok (.failed "workflow.unknown_outcome" false)
        | some outcome =>
            if ¬ claimed.outcomes.contains outcome then
              .ok (.failed "workflow.unknown_outcome" false)
            else
              checkResult packages claimed.responseSchema outcome
                (JsonNode.member members "result")
  | some _ => .error .nullReference

def jobContext (packages : Packages) (claimed : ClaimedJob) (payload : String) : InvokeContext where
  principal := "workflow-worker"
  correlationId := claimed.executionId
  requestId := uuidText claimed.executionId
  scopes := claimed.task.requiredPolicy
  recordDispatch := true
  payloadHash := packages.sha256Hex payload

structure JobCommit where
  executed : Option ActionManifest
  reply : Json
  outcome : String
  dispatch : Option DispatchRow

/-- The faults the statements of a job meet; `landed` says what becomes of a COMMIT whose
answer is lost. A `finish_job` that raises is a refused statement. -/
structure JobFaults where
  begin : Option Fault := none
  invoke : Option Fault := none
  finish : Option Fault := none
  commit : Option Fault := none
  landed : Bool := false

def processJob (packages : Packages) (db : ApiDb) (claimed : ClaimedJob) (payload : String)
    (target : TargetRun) (faults : JobFaults) : Option JobCommit :=
  if faults.begin.isSome ∨ faults.invoke.isSome then none
  else
    match apiInvoke db claimed.task.module claimed.task.action (some claimed.task.actionVersion)
        (jobContext packages claimed payload) target with
    | .error _ => none
    | .ok invocation =>
        match checkJobEnvelope packages claimed invocation.reply with
        | .ok (.accepted outcome _) =>
            if faults.finish.isSome then none
            else
              match faults.commit with
              | none => some ⟨invocation.executed, invocation.reply, outcome, invocation.dispatch⟩
              | some .refused => none
              | some _ =>
                  if faults.landed then
                    some ⟨invocation.executed, invocation.reply, outcome, invocation.dispatch⟩
                  else none
        | _ => none

end PaymentWorkflow
