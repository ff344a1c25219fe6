import PaymentWorkflow.ReceiptCore
import PaymentWorkflow.SystemCore

/-!
`payment.submit_v1` statement by statement, and any number of its calls on one database with
the committed calls of everybody else between their statements. Where a submit raises,
`api.invoke` answers `internal.error`.
-/

namespace PaymentWorkflow

open RowLocks

inductive SubmitRow
  | process (flowName businessKey : String)
  | operation (id : Nat)
  | submission (operationId : Nat)
deriving DecidableEq

def readOperation (db : Db) (payload : Json) : Except Envelope Operation :=
  match payload.text? "operationId" with
  | none => .error (.error "operation.not_found" "operation not found")
  | some content =>
      match castUuid content with
      | none => .error (.error "payload.invalid" "invalid operationId")
      | some id =>
          match db.payment.operation? id with
          | none => .error (.error "operation.not_found" "operation not found")
          | some operation => .ok operation

def startFor (db : Db) (operation : Operation) (flowName : String) :
    Except SqlError (Db × StartReply) :=
  startProcess db flowName (uuidText operation.id) (processData operation)

def Db.submitted (db : Db) (operationId : Nat) : Bool :=
  db.payment.operationEvents.any fun row =>
    row.operationId = operationId ∧ row.eventType = .submitted

def Db.unprocessed (db : Db) (operationId : Nat) : Bool :=
  (db.payment.operation? operationId).any fun row => row.status ≠ .processing

/-- The next statement of a `submit_v1`, with what the ones before it have read. `existing` is
the committed process `start_process` came upon, and is absent where the transaction has
inserted one of its own. -/
inductive SubmitStage
  | called
  | replaying (operation : Operation) (processId : Nat)
  | starting (operation : Operation) (flowName : String)
  | inserting (operation : Operation) (flowName : String)
  | pinning (operation : Operation) (flowName : String) (existing : Option StartReply)
  | logging (operation : Operation) (flowName : String) (existing : Option StartReply)
  | committing (operation : Operation) (flowName : String) (existing : Option StartReply)
      (submitted : Bool)
  | ended (ending : Ending)
deriving DecidableEq

namespace SubmitStage

def afterRead (db : Db) (operation : Operation) : SubmitStage :=
  match operation.processId with
  | some processId => .replaying operation processId
  | none =>
      if operation.status ≠ .created then
        .ended (.replied (.error "payload.invalid" "operation is not in CREATED state"))
      else
        match db.config.flowBindings.find? fun row =>
            row.operationKind = operation.operationKind with
        | none => .ended (.replied (.error "payload.invalid" "no flow binding for operation kind"))
        | some binding => .starting operation binding.flowName

def request (db : Db) : SubmitStage → Option (Request SubmitRow)
  -- a committed row under the key fails the INSERT at once
  | .inserting operation flowName =>
      if (db.startedProcess? flowName (uuidText operation.id)).isSome then none
      else some ⟨.process flowName (uuidText operation.id), .update⟩
  | .pinning operation _ _ =>
      if db.unprocessed operation.id then some ⟨.operation operation.id, .noKeyUpdate⟩ else none
  | .logging operation _ _ =>
      if db.submitted operation.id then none else some ⟨.submission operation.id, .update⟩
  | .called | .replaying .. | .starting .. | .committing .. | .ended _ => none

def started (db : Db) (operation : Operation) (flowName : String) :
    Option StartReply → Except SqlError (Db × StartReply)
  | some reply => .ok (db, reply)
  | none => startFor db operation flowName

def commit (db : Db) (payload : Json) (operation : Operation) (flowName : String)
    (existing : Option StartReply) (submitted : Bool) : Except SqlError (Db × Envelope) := do
  let (begun, reply) ← started db operation flowName existing
  let written ← if submitted then
      setStatus begun operation.id .processing .submitted (db.digest payload.render)
        (some reply.processId)
    else .ok begun
  .ok (written, .ok "PROCESSING" (submitResult operation reply.processId (some reply.flowName)
    (some reply.flowVersion)))

def perform (db : Db) (payload : Json) : SubmitStage → Db × SubmitStage
  | .called =>
      match readOperation db payload with
      | .error reply => (db, .ended (.replied reply))
      | .ok operation => (db, afterRead db operation)
  | .replaying operation processId =>
      let process := db.workflow.process? processId
      (db, .ended (.replied (.ok "PROCESSING" (submitResult operation processId
        (process.map Process.flowName) (process.map Process.flowVersion)))))
  | .starting operation flowName =>
      if (db.startedProcess? flowName (uuidText operation.id)).isSome then
        match startFor db operation flowName with
        | .error error => (db, .ended (.raised error))
        | .ok (_, reply) => (db, .pinning operation flowName (some reply))
      else (db, .inserting operation flowName)
  | .inserting operation flowName =>
      match startFor db operation flowName with
      | .error error => (db, .ended (.raised error))
      | .ok (_, reply) =>
          (db, .pinning operation flowName
            (if (db.startedProcess? flowName (uuidText operation.id)).isSome then some reply
              else none))
  | .pinning operation flowName existing =>
      if db.unprocessed operation.id then (db, .logging operation flowName existing)
      else (db, .committing operation flowName existing false)
  | .logging operation flowName existing =>
      -- ux_operation_events_submit_once
      if db.submitted operation.id then (db, .ended (.raised .uniqueViolation))
      else (db, .committing operation flowName existing true)
  | .committing operation flowName existing submitted =>
      match commit db payload operation flowName existing submitted with
      | .error error => (db, .ended (.raised error))
      | .ok (later, reply) => (later, .ended (.replied reply))
  | .ended ending => (db, .ended ending)

end SubmitStage

/-! Any number of submits, taking turns with the calls of everybody else. -/

inductive SubmitParty
  | idle
  | submitting (payload : Json) (stage : SubmitStage)
deriving DecidableEq

namespace SubmitParty

def request (system : System) : SubmitParty → Option (Request SubmitRow)
  | .idle => none
  | .submitting _ stage => stage.request system.db

def perform (system : System) : SubmitParty → System × SubmitParty
  | .idle => (system, .idle)
  | .submitting payload stage =>
      let done := stage.perform system.db payload
      ({ system with db := done.1 }, .submitting payload done.2)

def ended : SubmitParty → Bool
  | .submitting _ (.ended _) => true
  | _ => false

end SubmitParty

def submitProgram : Program System SubmitParty SubmitRow where
  request := SubmitParty.request
  perform := SubmitParty.perform
  ended := SubmitParty.ended

abbrev SubmitServer := Server System SubmitParty SubmitRow

def SubmitRow.same (db later : Db) : SubmitRow → Bool
  | .process flowName businessKey =>
      (db.startedProcess? flowName businessKey).map Process.id =
        (later.startedProcess? flowName businessKey).map Process.id
  | .operation id => db.payment.operation? id = later.payment.operation? id
  | .submission operationId => db.submitted operationId = later.submitted operationId

/-- A call that would write what a submit has locked waits for its end. -/
def SubmitServer.admits (server : SubmitServer) (later : Db) : Bool :=
  server.locks.all fun lock => lock.row.same server.shared.db later

inductive SubmitEvent
  | turn (index : Nat)
  | call (call : Call)

def submitStep (server : SubmitServer) : SubmitEvent → SubmitServer
  | .turn index => submitProgram.turn server index
  | .call call =>
      if SubmitServer.admits server (step server.shared call).db then
        { server with shared := step server.shared call }
      else server

def SubmitServer.start (system : System) (calls : Nat → Option Json) : SubmitServer where
  shared := system
  party := fun index => match calls index with
    | none => .idle
    | some payload => .submitting payload .called
  locks := []

end PaymentWorkflow
