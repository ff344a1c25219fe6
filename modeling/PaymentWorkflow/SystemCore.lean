import PaymentWorkflow.PaymentCore
import PaymentWorkflow.WorkerCore
import PaymentWorkflow.Runs

/-!
`api.invoke`, the worker's transaction, and the system of committed calls: every step is
one transaction, and a call that raises leaves the database as it was.
-/

namespace PaymentWorkflow

/-- The registered target functions. Those that only read other schemas are left out. -/
inductive Target
  | requestV1 | getV1 | operationEventsV1 | submitV1 | validateV1 | prepareExternalV1
  | applyReceiptV1 | checkLimitV1 | approveV1 | completeV1 | rejectV1 | receiptAcceptV1
  | manualV1
deriving DecidableEq

def target? (targetSchema targetFunction : String) : Option Target :=
  if targetSchema = "payment" then
    match targetFunction with
    | "request_v1" => some .requestV1
    | "get_v1" => some .getV1
    | "operation_events_v1" => some .operationEventsV1
    | "submit_v1" => some .submitV1
    | "validate_v1" => some .validateV1
    | "prepare_external_v1" => some .prepareExternalV1
    | "apply_receipt_v1" => some .applyReceiptV1
    | "check_limit_v1" => some .checkLimitV1
    | "approve_v1" => some .approveV1
    | "complete_v1" => some .completeV1
    | "reject_v1" => some .rejectV1
    | "receipt_accept_v1" => some .receiptAcceptV1
    | _ => none
  else if targetSchema = "workflow" ∧ targetFunction = "manual_v1" then some .manualV1
  else none

def runTarget (target : Target) (db : Db) (context : Context) (payload : Json) :
    Except SqlError (Db × Envelope) :=
  match target with
  | .requestV1 => requestV1 db context payload
  | .getV1 => getV1 db payload
  | .operationEventsV1 => operationEventsV1 db payload
  | .submitV1 => submitV1 db payload
  | .validateV1 => validateV1 db payload
  | .prepareExternalV1 => prepareExternalV1 db context payload
  | .applyReceiptV1 => applyReceiptV1 db payload
  | .checkLimitV1 => checkLimitV1 db payload
  | .approveV1 => approveV1 db payload
  | .completeV1 => completeV1 db payload
  | .rejectV1 => rejectV1 db payload
  | .receiptAcceptV1 => receiptAcceptV1 db context payload
  | .manualV1 => manualV1 db context.principal payload

@[simps] def Db.insertDispatch (db : Db) (dispatch : Dispatch) : Db :=
  { db with dispatches := db.dispatches ++ [dispatch] }

def recordDispatch (db : Db) (module action : String) (version : Int) (context : Context)
    (envelope : Envelope) : Except SqlError Db :=
  if ¬ context.recordDispatch then .ok db
  else
    match context.correlationId.bind castUuid, context.requestId with
    | some correlationId, some requestId =>
        if requestId = "" then .error .invalidRecordContext
        else
          match envelope with
          | .error _ _ => .ok db
          | .ok outcome _ =>
              match context.principal with
              | none => .error .notNullViolation
              | some principal =>
                  if db.dispatches.any fun row => row.correlationId = correlationId then
                    .error .uniqueViolation
                  else
                    .ok (db.insertDispatch ⟨correlationId, requestId, module, action, version,
                      principal, some outcome⟩)
    | _, _ => .error .invalidRecordContext

def catalogRow (config : Config) (module action : String) (version : Option Int) :
    Except String ActionRow :=
  match version with
  | some number =>
      match config.action? module action number with
      | none => .error "unknown or disabled action"
      | some row => if row.enabled then .ok row else .error "unknown or disabled action"
  | none =>
      match config.defaultAction? module action with
      | none => .error "no default version"
      | some row => .ok row

def invoke (db : Db) (module action : String) (version : Option Int) (context : Context)
    (payload : Json) : Except SqlError (Db × Envelope) :=
  match catalogRow db.config module action version with
  | .error message => .ok (db, .error "action.not_found" message)
  | .ok row =>
      if ¬ row.requiredPolicy.all context.scopes.contains then
        .ok (db, .error "access.denied" "insufficient policy")
      else
        match target? row.targetSchema row.targetFunction with
        | none => .ok (db, .error "internal.error" "invalid target signature")
        | some target =>
            match runTarget target db context payload with
            | .error _ => .ok (db, .error "internal.error" "target failed")
            | .ok (changed, envelope) => do
                let recorded ← recordDispatch changed module action row.version context envelope
                .ok (recorded, envelope)

/-! The worker's transaction. -/

def workerContext (claimed : ClaimedJob) : Context where
  principal := some "workflow-worker"
  requestId := some (uuidText claimed.executionId)
  correlationId := some (uuidText claimed.executionId)
  scopes := claimed.task.requiredPolicy
  recordDispatch := true

inductive WorkFailure
  | taskInvalid
  | mappingMissing (failure : PayloadFailure)
  | domain (code : String)
  | unknownOutcome
  | database (error : SqlError)
deriving DecidableEq

/-- `ProcessJobAsync` up to the outcome of the action. The two JSON Schema tests can only
make the worker give up, which it may do at any point. -/
def runAction (db : Db) (claimed : ClaimedJob) : Except WorkFailure (Db × String) :=
  let task := claimed.task
  if task.module = "" ∨ task.action = "" ∨ task.actionVersion < 1 then .error .taskInvalid
  else
    match buildPayload claimed.processData task with
    | .error failure => .error (.mappingMissing failure)
    | .ok payload =>
        match invoke db task.module task.action (some task.actionVersion) (workerContext claimed)
            payload with
        | .error failure => .error (.database failure)
        | .ok (_, .error code _) => .error (.domain code)
        | .ok (acted, .ok outcome _) =>
            if ¬ claimed.outcomes.contains outcome then .error .unknownOutcome
            else .ok (acted, outcome)

def finishClaimed (db : Db) (claimed : ClaimedJob) (outcome : String) :
    Except SqlError (Db × Option ProcessState) :=
  finishJob db claimed.jobId (some claimed.owner) (some (claimed.leaseVersion : Int)) (some outcome)

def workTransaction (db : Db) (claimed : ClaimedJob) : Except WorkFailure Db :=
  match runAction db claimed with
  | .error failure => .error failure
  | .ok (acted, outcome) =>
      match finishClaimed acted claimed outcome with
      | .error failure => .error (.database failure)
      | .ok (finished, _) => .ok finished

/-! The system: the committed database and the job records claims have handed out. -/

structure System where
  db : Db
  handed : List ClaimedJob

inductive Call
  | startProcess (flowName businessKey : String) (data : Json)
  | acceptSignal (processId : Nat) (signalType messageId : String) (payload : Json)
  | reconcileInbox (limit : Option Int) (locked : String → Bool)
  | claimJobs (owner : String) (batch leaseMs : Option Int) (locked : Nat → Bool)
  | finishJob (jobId : Nat) (owner : Option String) (leaseVersion : Option Int)
      (outcome : Option String)
  | failJob (jobId : Nat) (owner : Option String) (leaseVersion : Option Int)
      (errorCode : Option String) (retryable : Bool)
  | work (claimed : ClaimedJob)
  | invoke (module action : String) (version : Option Int) (context : Context) (payload : Json)
  | claimOutbox (owner : String) (limit : Option Int) (locked : Nat → Bool)
  | succeedOutbox (outboxId : Nat) (owner : Option String) (leaseVersion : Option Int)
      (providerPaymentId : Option String)
  | failOutbox (outboxId : Nat) (owner : Option String) (leaseVersion : Option Int)
      (errorCode : Option String)

def execDb (db : Db) : Call → Option Db
  | .startProcess flowName businessKey data =>
      (startProcess db flowName businessKey data).toOption.map Prod.fst
  | .acceptSignal processId signalType messageId payload =>
      (acceptSignalCall db processId signalType messageId payload).toOption.map Prod.fst
  | .reconcileInbox limit locked => (reconcileInbox db limit locked).toOption.map Prod.fst
  | .claimJobs owner batch leaseMs locked =>
      (claimJobs db owner batch leaseMs locked).toOption.map Prod.fst
  | .finishJob jobId owner leaseVersion outcome =>
      (finishJob db jobId owner leaseVersion outcome).toOption.map Prod.fst
  | .failJob jobId owner leaseVersion errorCode retryable =>
      (failJob db jobId owner leaseVersion errorCode retryable).toOption.map Prod.fst
  | .work claimed => (workTransaction db claimed).toOption
  | .invoke module action version context payload =>
      (invoke db module action version context payload).toOption.map Prod.fst
  | .claimOutbox owner limit locked => (claimOutbox db owner limit locked).toOption.map Prod.fst
  | .succeedOutbox outboxId owner leaseVersion providerPaymentId =>
      some (succeedOutbox db outboxId owner leaseVersion providerPaymentId).1
  | .failOutbox outboxId owner leaseVersion errorCode =>
      some (failOutbox db outboxId owner leaseVersion errorCode).1

def handedOut (db : Db) : Call → List ClaimedJob
  | .claimJobs owner batch leaseMs locked =>
      match claimJobs db owner batch leaseMs locked with
      | .ok (_, claimed) => claimed
      | .error _ => []
  | _ => []

/-- A worker only works on a record a claim has handed out. -/
def Call.enabled (system : System) : Call → Bool
  | .work claimed => claimed ∈ system.handed
  | _ => true

def step (system : System) (call : Call) : System :=
  if call.enabled system then
    { db := (execDb system.db call).getD system.db
      handed := system.handed ++ handedOut system.db call }
  else system

end PaymentWorkflow
