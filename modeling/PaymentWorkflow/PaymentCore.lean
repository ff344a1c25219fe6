import PaymentWorkflow.DeliveryCore

/-! The action functions of schema payment. -/

namespace PaymentWorkflow

namespace Payment

def operation? (payment : Payment) (id : Nat) : Option Operation :=
  Table.lookup Operation.id id payment.operations

end Payment

namespace Db

@[simps] def updateOperation (db : Db) (id : Nat) (change : Operation → Operation) : Db :=
  { db with payment := { db.payment with
      operations := Table.update (fun row => row.id = id) change db.payment.operations } }

@[simps] def insertOperation (db : Db) (requestId principal : String)
    (operationKind : OperationKind) (amount : Int) (currency : String) : Db :=
  { db with
    payment := { db.payment with
      operations := db.payment.operations ++ [{
        id := db.nextId, requestId, principal, operationKind, amount, currency
        status := .created, processId := none }] }
    nextId := db.nextId + 1 }

@[simps] def insertOperationEvent (db : Db) (operationId : Nat) (eventType : OperationEventType)
    (payloadHash : String) : Db :=
  { db with
    payment := { db.payment with
      operationEvents := db.payment.operationEvents ++
        [⟨operationId, eventType, payloadHash, db.now⟩] }
    ticks := db.ticks + 1 }

end Db

def OperationKind.ofText? : String → Option OperationKind
  | "PAYMENT_EXECUTION" => some .paymentExecution
  | "PAYMENT_APPROVAL" => some .paymentApproval
  | _ => none

def OperationKind.text : OperationKind → String
  | .paymentExecution => "PAYMENT_EXECUTION"
  | .paymentApproval => "PAYMENT_APPROVAL"

def OperationStatus.text : OperationStatus → String
  | .created => "CREATED"
  | .processing => "PROCESSING"
  | .completed => "COMPLETED"
  | .rejected => "REJECTED"

def OperationEventType.text : OperationEventType → String
  | .created => "OPERATION_CREATED"
  | .submitted => "OPERATION_SUBMITTED"
  | .completed => "OPERATION_COMPLETED"
  | .rejected => "OPERATION_REJECTED"

def withOperation (db : Db) (payload : Json)
    (body : Operation → Except SqlError (Db × Envelope)) : Except SqlError (Db × Envelope) :=
  match payload.text? "operationId" with
  | none => .ok (db, .error "operation.not_found" "operation not found")
  | some content =>
      match castUuid content with
      | none => .ok (db, .error "payload.invalid" "invalid operationId")
      | some id =>
          match db.payment.operation? id with
          | none => .ok (db, .error "operation.not_found" "operation not found")
          | some operation => body operation

def operationResult (operation : Operation) (rest : List (String × Json)) : Json :=
  .object (("operationId", .text (uuidText operation.id)) :: rest)

/-- `payment._set_status`: only a change of status is written and logged. -/
def setStatus (db : Db) (operationId : Nat) (status : OperationStatus)
    (eventType : OperationEventType) (payloadHash : String) (processId : Option Nat) :
    Except SqlError Db :=
  match db.payment.operation? operationId with
  | none => .ok db
  | some operation =>
      if operation.status = status then .ok db
      -- ux_operation_events_submit_once
      else if eventType = .submitted ∧ db.payment.operationEvents.any (fun row =>
          row.operationId = operationId ∧ row.eventType = .submitted) then .error .uniqueViolation
      else
        .ok ((db.updateOperation operationId fun row => { row with
          status, processId := processId.or row.processId }).insertOperationEvent operationId
            eventType payloadHash)

def isNaN (content : String) : Bool :=
  (trimmed content.toList).map Char.toLower = "nan".toList

/-- `operations_amount_check`, in hundredths. -/
def isOperationAmount (amount : Int) : Bool := 1 ≤ amount && amount ≤ 999999999999999999

def requestV1 (db : Db) (context : Context) (payload : Json) : Except SqlError (Db × Envelope) :=
  match context.requestId with
  | none => .ok (db, .error "idempotency.required" "missing Idempotency-Key")
  | some requestId =>
      if requestId = "" then .ok (db, .error "idempotency.required" "missing Idempotency-Key")
      else
        match payload.text? "amount" with
        | none => .error .notNullViolation
        | some amountText =>
            if isNaN amountText then .error .checkViolation
            else
              match castNumeric amountText with
              | none => .ok (db, .error "payload.invalid" "invalid amount")
              | some amount =>
                  match context.principal, payload.text? "operationKind",
                      payload.text? "currency" with
                  | some principal, some kindText, some currency =>
                      match OperationKind.ofText? kindText with
                      | none => .error .checkViolation
                      | some operationKind =>
                          if ¬ isOperationAmount amount ∨ currency ≠ "RUB" then
                            .error .checkViolation
                          else if db.payment.operations.any fun row =>
                              row.principal = principal ∧ row.requestId = requestId then
                            .error .uniqueViolation
                          else
                            .ok ((db.insertOperation requestId principal operationKind amount
                              currency).insertOperationEvent db.nextId .created
                                (db.digest payload.render),
                              .ok "CREATED" (.object [
                                ("operationId", .text (uuidText db.nextId)),
                                ("requestId", .text requestId),
                                ("operationKind", .text kindText),
                                ("amount", .text amountText),
                                ("currency", .text currency),
                                ("status", .text "CREATED")]))
                  | _, _, _ => .error .notNullViolation

def getV1 (db : Db) (payload : Json) : Except SqlError (Db × Envelope) :=
  withOperation db payload fun operation =>
    .ok (db, .ok "FOUND" (operationResult operation [
      ("requestId", .text operation.requestId),
      ("operationKind", .text operation.operationKind.text),
      ("amount", .text (numericText operation.amount)),
      ("currency", .text operation.currency),
      ("status", .text operation.status.text)]))

def OperationEvent.listed (row : OperationEvent) : Json :=
  .object [("eventType", .text row.eventType.text), ("payloadHash", .text row.payloadHash),
    ("occurredAt", .text (timestamptzText row.occurredAt))]

def operationEventsV1 (db : Db) (payload : Json) : Except SqlError (Db × Envelope) :=
  withOperation db payload fun operation =>
    .ok (db, .ok "FOUND" (operationResult operation [
      ("events", .array (((db.payment.operationEvents.filter fun row =>
        row.operationId = operation.id).insertionSort
          fun left right => left.occurredAt ≤ right.occurredAt).map OperationEvent.listed))]))

def submitResult (operation : Operation) (processId : Nat) (flowName : Option String)
    (flowVersion : Option Int) : Json :=
  operationResult operation [
    ("processId", .text (uuidText processId)),
    ("flowName", textOrNull flowName),
    ("flowVersion", (flowVersion.map fun version => Json.number (.ofInt version)).getD .null),
    ("status", .text "PROCESSING")]

def processData (operation : Operation) : Json :=
  operationResult operation [
    ("operationKind", .text operation.operationKind.text),
    ("amount", .text (numericText operation.amount)),
    ("currency", .text operation.currency)]

/-- The data of a process is made of texts, so `=` on jsonb is equality. -/
theorem same_processData {operation : Operation} {data : Json} :
    data.same (processData operation) = true ↔ data = processData operation :=
  @Json.same_texts [("operationId", uuidText operation.id),
    ("operationKind", operation.operationKind.text), ("amount", numericText operation.amount),
    ("currency", operation.currency)] data

def submitOperation (db : Db) (payload : Json) (operation : Operation) :
    Except SqlError (Db × Envelope) :=
  match operation.processId with
  | some processId =>
      let process := db.workflow.process? processId
      .ok (db, .ok "PROCESSING" (submitResult operation processId (process.map Process.flowName)
        (process.map Process.flowVersion)))
  | none =>
      if operation.status ≠ .created then
        .ok (db, .error "payload.invalid" "operation is not in CREATED state")
      else
        match db.config.flowBindings.find? fun row =>
            row.operationKind = operation.operationKind with
        | none => .ok (db, .error "payload.invalid" "no flow binding for operation kind")
        | some binding => do
            let (started, reply) ← startProcess db binding.flowName (uuidText operation.id)
              (processData operation)
            let submitted ← setStatus started operation.id .processing .submitted
              (db.digest payload.render) (some reply.processId)
            .ok (submitted, .ok "PROCESSING" (submitResult operation reply.processId
              (some reply.flowName) (some reply.flowVersion)))

def submitV1 (db : Db) (payload : Json) : Except SqlError (Db × Envelope) :=
  withOperation db payload (submitOperation db payload)

def validateV1 (db : Db) (payload : Json) : Except SqlError (Db × Envelope) :=
  withOperation db payload fun operation =>
    if operation.status = .created then
      .ok (db, .error "payload.invalid" "operation is not processable")
    else
      .ok (db, .ok "VALID" (operationResult operation [("status", .text operation.status.text)]))

/-- `(p_context ->> 'correlationId')::uuid` in an INSERT into a NOT NULL column. -/
def correlationUuid (context : Context) : Except SqlError Nat :=
  match context.correlationId with
  | none => .error .notNullViolation
  | some content =>
      match castUuid content with
      | none => .error .castFailure
      | some id => .ok id

def Db.externalOf? (db : Db) (operationId : Nat) : Option ExternalRequest :=
  Table.lookup ExternalRequest.operationId operationId db.delivery.externalRequests

def prepareExternal (db : Db) (context : Context) (operation : Operation) :
    Except SqlError (Db × String) :=
  match db.externalOf? operation.id with
  | none => do
      let correlationId ← correlationUuid context
      let externalRequestId := uuidText db.nextId
      if db.delivery.externalRequests.any fun row => row.id = externalRequestId then
        .error .uniqueViolation
      else
        .ok ((db.insertExternal operation correlationId).insertOutbox externalRequestId
          correlationId, externalRequestId)
  | some external =>
      if db.delivery.outbox.any fun row => row.externalRequestId = external.id then
        .ok (db, external.id)
      else do
        let correlationId ← correlationUuid context
        .ok (db.insertOutbox external.id correlationId, external.id)

def prepareExternalV1 (db : Db) (context : Context) (payload : Json) :
    Except SqlError (Db × Envelope) :=
  withOperation db payload fun operation =>
    match operation.processId with
    | none => .ok (db, .error "payload.invalid" "process is not pinned")
    | some _ => do
        let (prepared, externalRequestId) ← prepareExternal db context operation
        .ok (prepared, .ok "PREPARED" (operationResult operation [
          ("externalRequestId", .text externalRequestId), ("state", .text "CREATED")]))

def Db.firstReceipt? (db : Db) (matched : Receipt → Bool) : Option Receipt :=
  Table.first (fun left right => left.receivedAt < right.receivedAt)
    (db.delivery.receipts.filter matched)

def applyReceiptV1 (db : Db) (payload : Json) : Except SqlError (Db × Envelope) :=
  withOperation db payload fun operation =>
    match db.externalOf? operation.id with
    | none => .ok (db, .error "receipt.not_found" "no receipt is recorded")
    | some external =>
        match db.firstReceipt? fun row => row.externalRequestId = external.id with
        | none => .ok (db, .error "receipt.not_found" "no receipt is recorded")
        | some receipt =>
            .ok (db, .ok receipt.outcome.text (operationResult operation [
              ("externalRequestId", .text external.id), ("outcome", .text receipt.outcome.text)]))

/-- 100000.00 in hundredths. -/
def courseLimit : Int := 10000000

def Db.limitStep? (db : Db) (processId : Nat) : Option StepInstance :=
  (db.workflow.process? processId).bind fun process =>
    Table.first (fun left right => left.enteredAt > right.enteredAt)
      (db.workflow.steps.filter fun row => row.processId = processId ∧
        (row.state = .ready ∨ row.state = .running) ∧
          some row.stepKey = process.currentStepKey)

def limitResult (operation : Operation) (decision : String) : Json :=
  operationResult operation [("decision", .text decision), ("ruleVersion", .text "course-limit-v1")]

def checkLimit (db : Db) (operation : Operation) : Except SqlError (Db × Envelope) :=
  if operation.amount ≤ courseLimit then
    match operation.processId with
    | none => .error .notNullViolation
    | some processId =>
        match db.limitStep? processId with
        | none => .error .notNullViolation
        | some step =>
            let decided :=
              if db.payment.decisions.any fun row => row.stepInstanceId = step.id then db
              else db.insertDecision processId step.id .limitRule none none .approved
                (some "course-limit-v1")
            .ok (decided, .ok "WITHIN_LIMIT" (limitResult operation "WITHIN_LIMIT"))
  else .ok (db, .ok "REVIEW_REQUIRED" (limitResult operation "REVIEW_REQUIRED"))

def checkLimitV1 (db : Db) (payload : Json) : Except SqlError (Db × Envelope) :=
  withOperation db payload (checkLimit db)

def Db.decided (db : Db) (operation : Operation) (outcome : DecisionOutcome) : Bool :=
  db.payment.decisions.any fun row =>
    some row.processId = operation.processId ∧ row.outcome = outcome

def Db.receiptApplied (db : Db) (operation : Operation) (outcome : ReceiptOutcome) : Bool :=
  (db.externalOf? operation.id).any fun external =>
    (db.firstReceipt? fun row => row.externalRequestId = external.id ∧ row.outcome = outcome).any
      fun receipt => receipt.appliedAt.isSome

def closeOperation (db : Db) (payload : Json) (operation : Operation) (status : OperationStatus)
    (eventType : OperationEventType) (outcome : String) : Except SqlError (Db × Envelope) := do
  let closed ← setStatus db operation.id status eventType (db.digest payload.render) none
  .ok (closed, .ok outcome (operationResult operation []))

/-- `approve_v1` looks for a decision whatever the kind of the operation. -/
def approveV1 (db : Db) (payload : Json) : Except SqlError (Db × Envelope) :=
  withOperation db payload fun operation =>
    if db.decided operation .approved then
      closeOperation db payload operation .completed .completed "APPROVED"
    else .ok (db, .error "payment.decision_missing" "no approved decision")

def withEvidence (db : Db) (operation : Operation) (receipt : ReceiptOutcome)
    (decision : DecisionOutcome) (receiptMissing decisionMissing : String)
    (body : Except SqlError (Db × Envelope)) : Except SqlError (Db × Envelope) :=
  if operation.operationKind = .paymentExecution then
    if db.receiptApplied operation receipt then body
    else .ok (db, .error "payment.evidence_missing" receiptMissing)
  else if db.decided operation decision then body
  else .ok (db, .error "payment.evidence_missing" decisionMissing)

def completeV1 (db : Db) (payload : Json) : Except SqlError (Db × Envelope) :=
  withOperation db payload fun operation =>
    withEvidence db operation .completed .approved "no applied completed receipt"
      "no approved decision" (closeOperation db payload operation .completed .completed "COMPLETED")

def rejectV1 (db : Db) (payload : Json) : Except SqlError (Db × Envelope) :=
  withOperation db payload fun operation =>
    withEvidence db operation .rejected .rejected "no applied rejected receipt"
      "no rejected decision" (closeOperation db payload operation .rejected .rejected "REJECTED")

end PaymentWorkflow
