import PaymentWorkflow.EngineCore
import PaymentWorkflow.PublishCore
import PaymentWorkflow.RowLocks

/-!
`start_process` and `activate_flow` statement by statement, and any number of their calls on one
database. What a call has written is seen by the others once it commits.
-/

namespace PaymentWorkflow

open RowLocks

inductive StartRow
  | process (flowName businessKey : String)
  | active (flowName : String)
  | version (flowName : String) (version : Int)
deriving DecidableEq

def Db.withVersions (db : Db) (versions : List FlowVersion) : Db :=
  { db with config := { db.config with flowVersions := versions } }

structure StartCall where
  flowName : String
  businessKey : Option String
  data : Option Json
deriving DecidableEq

inductive StartStage
  | called
  | reading
  | inserting (version : FlowVersion)
  | entering (version : FlowVersion)
  -- the handler of unique_violation; `inserted` where the violation came after the INSERT
  | handling (inserted : Bool)
  | ended (answer : Except SqlError StartReply)

def beginProcess (db : Db) (version : FlowVersion) (flowName businessKey : String) (data : Json) :
    Except SqlError (Db × StartReply) := do
  let processId := db.nextId
  let inserted := (db.insertProcess flowName version.version businessKey data).insertEvent
    processId none .processStarted
  let entered ← enterStep (recursionBound inserted) inserted processId version.map.startStep
  match entered.workflow.process? processId with
  | some process => .ok (entered, replyTo process)
  | none => .error (.processNotFound processId)

namespace StartCall

def key (call : StartCall) : String := call.businessKey.getD ""

def content (call : StartCall) : Json := call.data.getD (.object [])

def existing? (call : StartCall) (db : Db) : Option Process :=
  db.startedProcess? call.flowName call.key

def replay (call : StartCall) (process : Process) : Except SqlError StartReply :=
  if process.data.same call.content then .ok (replyTo process) else .error (.startConflict call.key)

def request (call : StartCall) (db : Db) : StartStage → Option (RowLocks.Request StartRow)
  -- a committed row under the key fails the INSERT at once
  | .inserting _ =>
      if (call.existing? db).isSome then none else some ⟨.process call.flowName call.key, .update⟩
  | .called | .reading | .entering _ | .handling _ | .ended _ => none

def perform (call : StartCall) (db : Db) : StartStage → Db × StartStage
  | .called =>
      if ¬ isFlowName call.flowName then (db, .ended (.error .flowInvalid))
      else if call.key = "" then (db, .ended (.error .processInvalid))
      else
        match call.existing? db with
        | some existing => (db, .ended (call.replay existing))
        | none => (db, .reading)
  | .reading =>
      match db.activeVersion? call.flowName with
      | none => (db, .ended (.error (.flowInactive call.flowName)))
      | some version => (db, .inserting version)
  | .inserting version =>
      if (call.existing? db).isSome then (db, .handling false) else (db, .entering version)
  | .entering version =>
      match beginProcess db version call.flowName call.key call.content with
      | .ok (later, reply) => (later, .ended (.ok reply))
      | .error .uniqueViolation => (db, .handling true)
      | .error error => (db, .ended (.error error))
  | .handling _ =>
      match call.existing? db with
      | some existing => (db, .ended (call.replay existing))
      | none => (db, .ended (.error (.startConflict call.key)))
  | .ended answer => (db, .ended answer)

end StartCall

/-! Activation. -/

structure Activation where
  flowName : String
  version : Int
deriving DecidableEq

/-- The row the first UPDATE found, and whether it was still active once its lock was granted. -/
structure FoundVersion where
  version : Int
  active : Bool
deriving DecidableEq

/-- The next statement of an `activate_flow`; an UPDATE finds its row and then waits for it. -/
inductive ActivationStage
  | called
  | clearing
  | locking (target : Int)
  | raising (found : Option FoundVersion)
  | indexing (found : Option FoundVersion)
  | committing (found : Option FoundVersion)
  | ended (answer : Except (ActivateError ⊕ SqlError) Unit)

namespace Activation

def cleared (found : Option FoundVersion) (row : FlowVersion) : Bool :=
  found = some ⟨row.version, true⟩

/-- The committed active version that the unique index finds beside the one of the call. -/
def rival? (activation : Activation) (db : Db) (found : Option FoundVersion) :
    Option FlowVersion :=
  db.config.flowVersions.find? fun row => row.flowName = activation.flowName ∧ row.isActive ∧
    row.version ≠ activation.version ∧ ¬ cleared found row

def request (activation : Activation) (db : Db) : ActivationStage → Option (RowLocks.Request StartRow)
  | .locking target => some ⟨.version activation.flowName target, .noKeyUpdate⟩
  | .raising _ => some ⟨.version activation.flowName activation.version, .noKeyUpdate⟩
  -- the index waits for whoever has a rival row in hand, or enters its key
  | .indexing found =>
      match activation.rival? db found with
      | some row => some ⟨.version activation.flowName row.version, .update⟩
      | none => some ⟨.active activation.flowName, .update⟩
  | .called | .clearing | .committing _ | .ended _ => none

def commit (activation : Activation) (db : Db) (found : Option FoundVersion) : Db :=
  db.withVersions (db.config.flowVersions.map fun row =>
    if row.flowName = activation.flowName then
      { row with isActive := row.version = activation.version ∨
          (row.isActive ∧ ¬ cleared found row) }
    else row)

def perform (activation : Activation) (db : Db) : ActivationStage → Db × ActivationStage
  | .called =>
      if ¬ isFlowName activation.flowName ∨ activation.version < 1 then
        (db, .ended (.error (.inl .flowInvalid)))
      else
        match db.config.flowVersion? activation.flowName activation.version with
        | none => (db, .ended (.error (.inl .flowNotFound)))
        | some _ => (db, .clearing)
  | .clearing =>
      match db.activeVersion? activation.flowName with
      | some row => (db, .locking row.version)
      | none => (db, .raising none)
  | .locking target =>
      -- the row is tested again once its lock is granted
      (db, .raising (some ⟨target, db.config.flowVersions.any fun row =>
        row.flowName = activation.flowName ∧ row.version = target ∧ row.isActive⟩))
  | .raising found => (db, .indexing found)
  | .indexing found =>
      -- ux_flow_version_active
      if (activation.rival? db found).isSome then
        (db, .ended (.error (.inr .uniqueViolation)))
      else (db, .committing found)
  | .committing found => (activation.commit db found, .ended (.ok ()))
  | .ended answer => (db, .ended answer)

end Activation

/-! Any number of calls of the two, taking turns. -/

inductive StartParty
  | idle
  | starting (call : StartCall) (stage : StartStage)
  | activating (activation : Activation) (stage : ActivationStage)

namespace StartParty

def request (db : Db) : StartParty → Option (RowLocks.Request StartRow)
  | .idle => none
  | .starting call stage => call.request db stage
  | .activating activation stage => activation.request db stage

def perform (db : Db) : StartParty → Db × StartParty
  | .idle => (db, .idle)
  | .starting call stage =>
      let done := call.perform db stage
      (done.1, .starting call done.2)
  | .activating activation stage =>
      let done := activation.perform db stage
      (done.1, .activating activation done.2)

def ended : StartParty → Bool
  | .starting _ (.ended _) | .activating _ (.ended _) => true
  | _ => false

end StartParty

def startProgram : Program Db StartParty StartRow where
  request := StartParty.request
  perform := StartParty.perform
  ended := StartParty.ended

abbrev StartServer := Server Db StartParty StartRow

inductive StartRequest
  | start (call : StartCall)
  | activate (activation : Activation)
deriving DecidableEq

def StartRequest.party : Option StartRequest → StartParty
  | none => .idle
  | some (.start call) => .starting call .called
  | some (.activate activation) => .activating activation .called

def StartServer.start (db : Db) (requests : Nat → Option StartRequest) : StartServer where
  shared := db
  party := fun index => StartRequest.party (requests index)
  locks := []

def Db.flagged (db : Db) (active : String → Option Int) : Db :=
  db.withVersions (db.config.flowVersions.map fun row =>
    { row with isActive := active row.flowName = some row.version })

end PaymentWorkflow
