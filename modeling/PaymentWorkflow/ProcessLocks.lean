import PaymentWorkflow.RowLocks
import PaymentWorkflow.EngineCore

/-!
`accept_signal`, `finish_job` and `manual_v1` by the locks they take up to the one that gives
them the process row. What they do after it runs with the commit, and what they return earlier
is what they would return alone.
-/

namespace PaymentWorkflow

open RowLocks

inductive EngineRow
  | process (id : Nat)
  | step (id : Nat)
  | job (id : Nat)
  | message (messageId : String)
  | body (processId : Nat) (signalType bodyHash : String)
deriving DecidableEq

inductive EngineReply
  | signal (reply : SignalReply)
  | finished (state : Option ProcessState)
  | decided (reply : Envelope)
  | raised (error : SqlError)
deriving DecidableEq

/-- A transaction's last statement: what it returned is committed, what it raised is not. -/
def concluded {Reply : Type} (db : Db) (reply : Reply → EngineReply) :
    Except SqlError (Db × Reply) → Db × EngineReply
  | .ok (later, result) => (later, reply result)
  | .error error => (db, .raised error)

/-! `workflow.accept_signal`. -/

structure SignalCall where
  processId : Nat
  signalType : String
  messageId : String
  payload : Json
deriving DecidableEq

def SignalCall.run (call : SignalCall) (db : Db) : Except SqlError (Db × SignalReply) :=
  acceptSignalCall db call.processId call.signalType call.messageId call.payload

def SignalCall.bodyHash (call : SignalCall) (db : Db) : String := db.digest call.payload.render

def SignalCall.arrives (call : SignalCall) (db : Db) : Bool :=
  isSignalType call.signalType && call.messageId ≠ "" &&
    (db.workflow.process? call.processId).any (declaresSignal db · call.signalType) &&
      (db.workflow.signal? call.messageId).isNone

inductive SignalStage
  | called
  | storing (bodyHash : String)
  | indexing (bodyHash : String)
  | referring (bodyHash : String)
  | logging (bodyHash : String)
  | locking (bodyHash : String)
  | applying (bodyHash : String)
  | ended (reply : EngineReply)
deriving DecidableEq

namespace SignalStage

def request (call : SignalCall) : SignalStage → Option (Request EngineRow)
  | .storing _ => some ⟨.message call.messageId, .update⟩
  | .indexing bodyHash => some ⟨.body call.processId call.signalType bodyHash, .update⟩
  | .referring _ | .logging _ => some ⟨.process call.processId, .keyShare⟩
  | .locking _ => some ⟨.process call.processId, .update⟩
  | .called | .applying _ | .ended _ => none

def conclude (db : Db) (call : SignalCall) : Db × SignalStage :=
  let done := concluded db .signal (call.run db)
  (done.1, .ended done.2)

def perform (db : Db) (call : SignalCall) : SignalStage → Db × SignalStage
  | .called =>
      if call.arrives db then (db, .storing (call.bodyHash db)) else conclude db call
  | .storing bodyHash =>
      if (db.workflow.signal? call.messageId).isSome then conclude db call
      else (db, .indexing bodyHash)
  | .indexing bodyHash =>
      if db.workflow.signals.any fun row =>
          sameSignal row call.processId call.signalType bodyHash then conclude db call
      else (db, .referring bodyHash)
  | .referring bodyHash => (db, .logging bodyHash)
  | .logging bodyHash => (db, .locking bodyHash)
  | .locking bodyHash => (db, .applying bodyHash)
  | .applying _ => conclude db call
  | .ended reply => (db, .ended reply)

end SignalStage

/-! `workflow.finish_job`. -/

structure FinishCall where
  jobId : Nat
  owner : Option String
  leaseVersion : Option Int
  outcome : Option String
deriving DecidableEq

def FinishCall.run (call : FinishCall) (db : Db) : Except SqlError (Db × Option ProcessState) :=
  finishJob db call.jobId call.owner call.leaseVersion call.outcome

def FinishCall.leased? (call : FinishCall) (db : Db) : Option Job :=
  (db.workflow.job? call.jobId).filter fun job =>
    !job.leaseIsStale call.owner call.leaseVersion &&
      (db.workflow.step? job.stepInstanceId).any fun step =>
        (db.workflow.process? job.processId).any fun process =>
          (db.config.transition? process.flowName process.flowVersion (some step.stepKey)
            call.outcome).isSome

inductive FinishStage
  | called
  | stepping (job : Job)
  | referring (job : Job)
  | locking (job : Job)
  | applying (job : Job)
  | ended (reply : EngineReply)
deriving DecidableEq

namespace FinishStage

def request (db : Db) (call : FinishCall) : FinishStage → Option (Request EngineRow)
  | .called => (db.workflow.job? call.jobId).map fun job => ⟨.job job.id, .update⟩
  | .stepping job => some ⟨.step job.stepInstanceId, .noKeyUpdate⟩
  | .referring job => some ⟨.process job.processId, .keyShare⟩
  | .locking job => some ⟨.process job.processId, .update⟩
  | .applying _ | .ended _ => none

def conclude (db : Db) (call : FinishCall) : Db × FinishStage :=
  let done := concluded db .finished (call.run db)
  (done.1, .ended done.2)

def perform (db : Db) (call : FinishCall) : FinishStage → Db × FinishStage
  | .called =>
      match call.leased? db with
      | some job => (db, .stepping job)
      | none => conclude db call
  | .stepping job => (db, .referring job)
  | .referring job => (db, .locking job)
  | .locking job => (db, .applying job)
  | .applying _ => conclude db call
  | .ended reply => (db, .ended reply)

end FinishStage

/-! `workflow.manual_v1`. -/

structure ManualCall where
  principal : Option String
  payload : Json
deriving DecidableEq

def ManualCall.run (call : ManualCall) (db : Db) : Except SqlError (Db × Envelope) :=
  manualV1 db call.principal call.payload

def ManualCall.process? (call : ManualCall) (db : Db) : Option Process :=
  match uuidArgument call.payload "processId", uuidArgument call.payload "stepInstanceId" with
  | .ok processId, .ok _ => processId.bind db.workflow.process?
  | _, _ => none

def ManualCall.step? (call : ManualCall) (db : Db) : Option StepInstance :=
  match uuidArgument call.payload "stepInstanceId" with
  | .ok stepInstanceId => stepInstanceId.bind db.workflow.step?
  | .error _ => none

inductive ManualStage
  | called
  | deciding (process : Process)
  | referring (process : Process) (step : StepInstance)
  | applying (process : Process) (step : StepInstance)
  | ended (reply : EngineReply)
deriving DecidableEq

namespace ManualStage

def request (db : Db) (call : ManualCall) : ManualStage → Option (Request EngineRow)
  | .called => (call.process? db).map fun process => ⟨.process process.id, .update⟩
  | .deciding _ => (call.step? db).map fun step => ⟨.step step.id, .update⟩
  | .referring process _ => some ⟨.process process.id, .keyShare⟩
  | .applying .. | .ended _ => none

def conclude (db : Db) (call : ManualCall) : Db × ManualStage :=
  let done := concluded db .decided (call.run db)
  (done.1, .ended done.2)

def perform (db : Db) (call : ManualCall) : ManualStage → Db × ManualStage
  | .called =>
      match call.process? db with
      | some process => (db, .deciding process)
      | none => conclude db call
  | .deciding process =>
      match call.step? db with
      | some step =>
          if step.processId = process.id ∧ step.stepType = .manual ∧ step.state = .waiting then
            (db, .referring process step)
          else conclude db call
      | none => conclude db call
  | .referring process step => (db, .applying process step)
  | .applying _ _ => conclude db call
  | .ended reply => (db, .ended reply)

end ManualStage

/-! Any number of the three calls, taking turns. -/

inductive EngineCall
  | none
  | acceptSignal (call : SignalCall)
  | finishJob (call : FinishCall)
  | manual (call : ManualCall)
deriving DecidableEq

inductive EngineParty
  | idle
  | signalling (call : SignalCall) (stage : SignalStage)
  | finishing (call : FinishCall) (stage : FinishStage)
  | deciding (call : ManualCall) (stage : ManualStage)
deriving DecidableEq

def EngineCall.party : EngineCall → EngineParty
  | .none => .idle
  | .acceptSignal call => .signalling call .called
  | .finishJob call => .finishing call .called
  | .manual call => .deciding call .called

namespace EngineParty

def request (db : Db) : EngineParty → Option (Request EngineRow)
  | .idle => none
  | .signalling call stage => stage.request call
  | .finishing call stage => stage.request db call
  | .deciding call stage => stage.request db call

def perform (db : Db) : EngineParty → Db × EngineParty
  | .idle => (db, .idle)
  | .signalling call stage =>
      let done := stage.perform db call
      (done.1, .signalling call done.2)
  | .finishing call stage =>
      let done := stage.perform db call
      (done.1, .finishing call done.2)
  | .deciding call stage =>
      let done := stage.perform db call
      (done.1, .deciding call done.2)

def ended : EngineParty → Bool
  | .signalling _ (.ended _) | .finishing _ (.ended _) | .deciding _ (.ended _) => true
  | _ => false

end EngineParty

def engineProgram : Program Db EngineParty EngineRow where
  request := EngineParty.request
  perform := EngineParty.perform
  ended := EngineParty.ended

abbrev EngineServer := Server Db EngineParty EngineRow

def EngineServer.start (db : Db) (calls : Nat → EngineCall) : EngineServer where
  shared := db
  party := fun index => (calls index).party
  locks := []

end PaymentWorkflow
