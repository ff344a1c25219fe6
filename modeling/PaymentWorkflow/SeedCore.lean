import PaymentWorkflow.PublishCore

/-! The catalog and the flows the migrations seed. JSON Schemas are left out. -/

namespace PaymentWorkflow

namespace Seed

def action (module action targetFunction policy : String) (outcomes : List String)
    (targetSchema : String := "payment") (version : Int := 1) (isDefault : Bool := true) :
    ActionRow where
  module
  action
  version
  targetSchema
  targetFunction
  outcomes
  requiredPolicy := [policy]
  enabled := true
  isDefault

def actionCatalog : List ActionRow := [
  action "payment" "request" "request_v1" "payment:write" ["CREATED"],
  action "operation" "get" "get_v1" "payment:read" ["FOUND"],
  action "workflow" "get" "get_v1" "workflow:read" ["FOUND"] "workflow",
  action "training" "canary" "canary_v1" "workflow:execute" ["APPLIED"] "training",
  action "training" "canary" "canary_v2" "workflow:execute" ["APPLIED_V2"] "training" 2 false,
  action "payment" "submit" "submit_v1" "payment:write" ["PROCESSING"],
  action "operation" "events" "operation_events_v1" "payment:read" ["FOUND"],
  action "payment" "validate" "validate_v1" "payment:internal" ["VALID"],
  action "payment" "prepare_external" "prepare_external_v1" "payment:internal" ["PREPARED"],
  action "payment" "apply_receipt" "apply_receipt_v1" "payment:internal" ["COMPLETED", "REJECTED"],
  action "payment" "complete" "complete_v1" "payment:internal" ["COMPLETED"],
  action "payment" "reject" "reject_v1" "payment:internal" ["REJECTED"],
  action "payment" "check_limit" "check_limit_v1" "payment:internal"
    ["WITHIN_LIMIT", "REVIEW_REQUIRED"],
  action "payment" "approve" "approve_v1" "payment:internal" ["APPROVED"],
  action "receipt" "accept" "receipt_accept_v1" "receipt:write" ["RECEIVED", "DUPLICATE"],
  action "workflow" "manual" "manual_v1" "workflow:manual" ["APPROVED", "REJECTED"] "workflow"]

def automatic (key module action policy : String) (retry : Retry) (pointer : String)
    (actionVersion : Int := 1) : FlowStep where
  key
  type := "automatic"
  task := some {
    service := "postgres", module, action, actionVersion, requiredPolicy := [policy]
    timeoutMs := 2000, retry, inputMapping := [(pointer, pointer)], inputConstants := [] }

def internal (key action : String) (retry : Retry) : FlowStep :=
  automatic key "payment" action "payment:internal" retry "/operationId"

def waitSignal (key signalType outcome : String) : FlowStep where
  key
  type := "wait_signal"
  signalType := some signalType
  outcome := some outcome

def manual (key : String) (allowedOutcomes : List String) : FlowStep where
  key
  type := "manual"
  allowedOutcomes := some allowedOutcomes

def finish (key outcome : String) : FlowStep where
  key
  type := "end"
  outcome := some outcome

def paymentProcessing : FlowMap where
  contractVersion := "course-1"
  flowName := "payment-processing"
  version := 1
  startStep := "validate_operation"
  steps := [
    internal "validate_operation" "validate" ⟨some 1, []⟩,
    internal "prepare_external_request" "prepare_external" ⟨some 3, [200, 400]⟩,
    waitSignal "wait_receipt" "payment.receipt" "RECEIVED",
    internal "apply_receipt" "apply_receipt" ⟨some 2, [200]⟩,
    internal "complete_operation" "complete" ⟨some 2, [200]⟩,
    internal "reject_operation" "reject" ⟨some 2, [200]⟩,
    finish "done" "FINISHED"]
  transitions := [
    ⟨"validate_operation", "VALID", "prepare_external_request"⟩,
    ⟨"prepare_external_request", "PREPARED", "wait_receipt"⟩,
    ⟨"wait_receipt", "RECEIVED", "apply_receipt"⟩,
    ⟨"apply_receipt", "COMPLETED", "complete_operation"⟩,
    ⟨"apply_receipt", "REJECTED", "reject_operation"⟩,
    ⟨"complete_operation", "COMPLETED", "done"⟩,
    ⟨"reject_operation", "REJECTED", "done"⟩]

def paymentReview : FlowMap where
  contractVersion := "course-1"
  flowName := "payment-review"
  version := 1
  startStep := "validate_operation"
  steps := [
    internal "validate_operation" "validate" ⟨some 1, []⟩,
    internal "check_limit" "check_limit" ⟨some 1, []⟩,
    manual "wait_manual_decision" ["APPROVED", "REJECTED"],
    internal "approve_operation" "approve" ⟨some 2, [200]⟩,
    internal "reject_operation" "reject" ⟨some 2, [200]⟩,
    finish "done" "FINISHED"]
  transitions := [
    ⟨"validate_operation", "VALID", "check_limit"⟩,
    ⟨"check_limit", "WITHIN_LIMIT", "approve_operation"⟩,
    ⟨"check_limit", "REVIEW_REQUIRED", "wait_manual_decision"⟩,
    ⟨"wait_manual_decision", "APPROVED", "approve_operation"⟩,
    ⟨"wait_manual_decision", "REJECTED", "reject_operation"⟩,
    ⟨"approve_operation", "APPROVED", "done"⟩,
    ⟨"reject_operation", "REJECTED", "done"⟩]

def canary (retry : Retry) (actionVersion : Int) : FlowStep :=
  automatic "invoke_canary" "training" "canary" "workflow:execute" retry "/value" actionVersion

def workflowSmoke : FlowMap where
  contractVersion := "course-1"
  flowName := "workflow-smoke"
  version := 1
  startStep := "invoke_canary"
  steps := [
    canary ⟨some 3, [200, 400]⟩ 1,
    waitSignal "wait_result" "training.completed" "RECEIVED",
    finish "done" "COMPLETED"]
  transitions := [
    ⟨"invoke_canary", "APPLIED", "wait_result"⟩,
    ⟨"wait_result", "RECEIVED", "done"⟩]

def workflowSmokeV2 : FlowMap where
  contractVersion := "course-1"
  flowName := "workflow-smoke"
  version := 2
  startStep := "invoke_canary"
  steps := [
    canary ⟨some 2, [200]⟩ 2,
    waitSignal "wait_result" "training.v2.completed" "RECEIVED_V2",
    finish "done" "COMPLETED_V2"]
  transitions := [
    ⟨"invoke_canary", "APPLIED_V2", "wait_result"⟩,
    ⟨"wait_result", "RECEIVED_V2", "done"⟩]

def manualWait : FlowMap where
  contractVersion := "course-1"
  flowName := "manual-wait"
  version := 1
  startStep := "invoke_canary"
  steps := [
    canary ⟨some 3, [200, 400]⟩ 1,
    manual "review" ["APPROVED"],
    finish "done" "COMPLETED"]
  transitions := [
    ⟨"invoke_canary", "APPLIED", "review"⟩,
    ⟨"review", "APPROVED", "done"⟩]

def blank : Config where
  flowVersions := []
  stepDefinitions := []
  transitionDefinitions := []
  taskDefinitions := []
  actionCatalog := actionCatalog
  flowBindings := [
    ⟨.paymentExecution, "payment-processing"⟩, ⟨.paymentApproval, "payment-review"⟩]
  outboxPolicy := some ⟨3, [200, 400, 800]⟩

def publish (config : Config) (entry : FlowMap × Bool) : Config :=
  match publishFlow config (entry.1.map WrittenInt.plain) with
  | .error _ => config
  | .ok (published, _) =>
      if entry.2 then
        (activateFlow published entry.1.flowName entry.1.version).toOption.getD published
      else published

def config : Config :=
  [(workflowSmoke, true), (workflowSmokeV2, false), (manualWait, true),
    (paymentProcessing, true), (paymentReview, true)].foldl publish blank

end Seed

end PaymentWorkflow
