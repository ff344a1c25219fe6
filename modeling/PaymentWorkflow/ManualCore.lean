import PaymentWorkflow.ProcessLocks

/-!
`manual_v1` statement by statement: the two rows it locks and reads, and the decision it takes on
the rows it has read.
-/

namespace PaymentWorkflow

open RowLocks

def decideStep (db : Db) (principal : Option String) (process : Process) (step : StepInstance)
    (decision reason : Option String) : Except SqlError (Db × Envelope) :=
  match decision with
  | none => .error .notNullViolation
  | some decisionText =>
      match DecisionOutcome.ofText? decisionText with
      | none => .error .checkViolation
      | some outcome =>
          if db.payment.decisions.any fun row => row.stepInstanceId = step.id then
            .error .uniqueViolation
          else do
            let decided := (db.insertDecision process.id step.id .manual principal
              (reason.map db.digest) outcome none).completeManual process.id step.id decisionText
            let advanced ← advance (enterStep (recursionBound decided)) decided process.id
              (some decisionText)
            .ok (advanced, .ok decisionText (.object [
              ("decisionId", .text (uuidText db.nextId)),
              ("processId", .text (uuidText process.id)),
              ("stepInstanceId", .text (uuidText step.id)),
              ("decision", .text decisionText),
              ("source", .text "MANUAL"),
              ("principal", (principal.map Json.text).getD .null)]))

namespace ManualCall

def decide (call : ManualCall) (db : Db) (process : Process) (step : StepInstance) :
    Except SqlError (Db × Envelope) :=
  match decideStep db call.principal process step (call.payload.text? "decision")
      (call.payload.text? "reason") with
  | .error .uniqueViolation =>
      .ok (db, .error "workflow.decision_conflict" "decision is already recorded")
  | result => result

def conflict : EngineReply :=
  .decided (.error "workflow.decision_conflict" "step is not awaiting a decision")

def perform (call : ManualCall) (db : Db) : ManualStage → Db × ManualStage
  | .called =>
      match call.process? db with
      | some process => (db, .deciding process)
      | none => ManualStage.conclude db call
  | .deciding process =>
      match call.step? db with
      | some step =>
          if step.processId = process.id ∧ step.stepType = .manual ∧ step.state = .waiting then
            (db, .referring process step)
          else (db, .ended conflict)
      | none => (db, .ended conflict)
  | .referring process step => (db, .applying process step)
  | .applying process step =>
      let done := concluded db .decided (call.decide db process step)
      (done.1, .ended done.2)
  | .ended reply => (db, .ended reply)

end ManualCall

/-! The action as it is published: `api.invoke` calls `manual_v1` on the requests its schema
admits. -/

/-- A property of the request schema; `measure` is the length its bounds are compared with. -/
def isManualProperty (measure : String → Nat) : String × Json → Bool
  | ("processId", .text content) | ("stepInstanceId", .text content) => (castUuid content).isSome
  | ("decision", .text content) => content = "APPROVED" || content = "REJECTED"
  | ("reason", .text content) => 1 ≤ measure content && measure content ≤ 500
  | _ => false

def meetsManualSchema (measure : String → Nat) : Json → Bool
  | .object members =>
      members.all (isManualProperty measure) &&
        ["processId", "stepInstanceId", "decision", "reason"].all fun key =>
          members.any fun entry => entry.1 = key
  | _ => false

def ManualCall.admitted? (call : ManualCall) (measure : String → Nat) (db : Db) :
    Option (Except SqlError (Db × Envelope)) :=
  if meetsManualSchema measure call.payload then some (call.run db) else none

def manualRequest (processId stepInstanceId : Nat) (decision reason : String) : Json :=
  .object [("processId", .text (uuidText processId)),
    ("stepInstanceId", .text (uuidText stepInstanceId)), ("decision", .text decision),
    ("reason", .text reason)]

/-! Any number of decisions, taking turns. -/

inductive Decider
  | idle
  | deciding (call : ManualCall) (stage : ManualStage)
deriving DecidableEq

namespace Decider

def request (db : Db) : Decider → Option (RowLocks.Request EngineRow)
  | .idle => none
  | .deciding call stage => stage.request db call

def perform (db : Db) : Decider → Db × Decider
  | .idle => (db, .idle)
  | .deciding call stage =>
      let done := call.perform db stage
      (done.1, .deciding call done.2)

def ended : Decider → Bool
  | .deciding _ (.ended _) => true
  | _ => false

end Decider

def decisionProgram : Program Db Decider EngineRow where
  request := Decider.request
  perform := Decider.perform
  ended := Decider.ended

abbrev DecisionServer := Server Db Decider EngineRow

def DecisionServer.start (db : Db) (calls : Nat → Option ManualCall) : DecisionServer where
  shared := db
  party := fun index => (calls index).elim .idle fun call => .deciding call .called
  locks := []

end PaymentWorkflow
