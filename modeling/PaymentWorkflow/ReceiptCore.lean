import PaymentWorkflow.RowLocks
import PaymentWorkflow.DeliveryCore

/-!
`payment.receipt_accept_v1` and `delivery.succeed_outbox` statement by statement, as
transactions that read what is committed, lock the rows they write and publish their writes
with their commit.
-/

namespace PaymentWorkflow

open RowLocks

inductive DeliveryRow
  | message (messageId : String)
  | process (id : Nat)
  | external (id : String)
  | outbox (id : Nat)
deriving DecidableEq

/-- What `receipt_accept_v1` has read once its checks have passed. An outcome that the table of
receipts refuses is `none`. -/
structure Arrival where
  messageId : String
  externalRequestId : String
  processId : Nat
  outcome : Option ReceiptOutcome
  bodyHash : String
  body : Json
deriving DecidableEq

inductive ReceiptCheck
  | answered (reply : Envelope)
  | arrived (arrival : Arrival)

def readArrival (db : Db) (external : ExternalRequest) (bodyHash : String) (payload : Json) :
    Except SqlError ReceiptCheck :=
  match db.message? (payload.text? "messageId") with
  | some existing =>
      .ok (.answered (duplicateReply existing bodyHash (payload.text? "messageId")
        (payload.text? "externalRequestId") "messageId is already used with a different body"))
  | none =>
      match payload.text? "messageId",
          (Table.lookup Operation.id external.operationId db.payment.operations).bind
            Operation.processId with
      | some messageId, some processId =>
          .ok (.arrived {
            messageId, externalRequestId := external.id, processId, bodyHash
            outcome := (payload.text? "outcome").bind ReceiptOutcome.ofText?
            body := receiptBody payload })
      | _, _ => .error .notNullViolation

def checkReceipt (db : Db) (context : Context) (payload : Json) : Except SqlError ReceiptCheck := do
  let version ← intArgument payload "version"
  if context.signatureVerified ≠ some true then
    .ok (.answered (.error "receipt.signature_required" "signature is required"))
  else if context.signatureVersion ≠ some 1 then
    .ok (.answered (.error "signature.invalid" "unsupported signature version"))
  else if version ≠ some 1 then
    .ok (.answered (.error "payload.invalid" "unsupported receipt version"))
  else
    match context.bodySha256 with
    | none => .ok (.answered (.error "signature.invalid" "body hash is missing"))
    | some bodyHash =>
        if ¬ isSha256Hex bodyHash then
          .ok (.answered (.error "signature.invalid" "body hash is missing"))
        else if ¬ (payload.text? "occurredAt").any isOccurredAt then
          .ok (.answered (.error "payload.invalid" "invalid occurredAt"))
        else
          match (payload.text? "externalRequestId").bind fun id =>
              Table.lookup ExternalRequest.id id db.delivery.externalRequests with
          | none =>
              .ok (.answered (.error "receipt.external_request_not_found" "unknown external request"))
          | some external => readArrival db external bodyHash payload

def takenReply (db : Db) (context : Context) (payload : Json) : Envelope :=
  match db.message? (payload.text? "messageId"), context.bodySha256 with
  | some existing, some bodyHash =>
      duplicateReply existing bodyHash (payload.text? "messageId")
        (payload.text? "externalRequestId") "messageId is already used"
  | _, _ => .error "idempotency.conflict" "messageId is already used"

/-- The two rows of a receipt, each with its own reading of the clock. -/
@[simps] def Db.insertArrival (db : Db) (arrival : Arrival) (outcome : ReceiptOutcome)
    (storedAt recordedAt : Time) : Db :=
  { db with delivery := { db.delivery with
      inbox := db.delivery.inbox ++ [{
        messageId := arrival.messageId, externalRequestId := arrival.externalRequestId
        processId := arrival.processId, signalType := "payment.receipt"
        bodyHash := arrival.bodyHash, payload := arrival.body, state := .received
        receivedAt := storedAt }]
      receipts := db.delivery.receipts ++ [{
        messageId := arrival.messageId, externalRequestId := arrival.externalRequestId, outcome
        bodyHash := arrival.bodyHash, body := arrival.body, receivedAt := recordedAt
        appliedAt := none }] } }

inductive Ending
  | replied (reply : Envelope)
  | raised (error : SqlError)
deriving DecidableEq

/-- The next statement of a `receipt_accept_v1`, with what the ones before it have read and
written. The foreign keys of the two INSERTs are checked after the first of them. -/
inductive AcceptStage
  | called
  | storing (arrival : Arrival)
  | referringExternal (arrival : Arrival) (storedAt : Time)
  | referringProcess (arrival : Arrival) (storedAt : Time)
  | recording (arrival : Arrival) (storedAt : Time)
  | confirming (arrival : Arrival) (outcome : ReceiptOutcome) (storedAt recordedAt : Time)
  | releasing (arrival : Arrival) (outcome : ReceiptOutcome) (storedAt recordedAt : Time)
  | committing (arrival : Arrival) (outcome : ReceiptOutcome) (storedAt recordedAt : Time)
      (released : Option Nat)
  | ended (ending : Ending)
deriving DecidableEq

def Db.unconfirmed? (db : Db) (externalRequestId : String) : Option OutboxRow :=
  db.delivery.outbox.find? fun row =>
    row.externalRequestId = externalRequestId ∧ row.state ≠ .confirmed

namespace AcceptStage

def request (db : Db) : AcceptStage → Option (Request DeliveryRow)
  | .storing arrival => some ⟨.message arrival.messageId, .update⟩
  | .referringExternal arrival _ => some ⟨.external arrival.externalRequestId, .keyShare⟩
  | .referringProcess arrival _ => some ⟨.process arrival.processId, .keyShare⟩
  | .confirming arrival .. => some ⟨.external arrival.externalRequestId, .noKeyUpdate⟩
  | .releasing arrival .. =>
      (db.unconfirmed? arrival.externalRequestId).map fun row => ⟨.outbox row.id, .noKeyUpdate⟩
  | .called | .recording .. | .committing .. | .ended _ => none

def perform (db : Db) (context : Context) (payload : Json) : AcceptStage → Db × AcceptStage
  | .called =>
      match checkReceipt db context payload with
      | .error error => (db, .ended (.raised error))
      | .ok (.answered reply) => (db, .ended (.replied reply))
      | .ok (.arrived arrival) => (db, .storing arrival)
  | .storing arrival =>
      if db.delivery.inbox.any fun row => row.messageId = arrival.messageId then
        (db, .ended (.replied (takenReply db context payload)))
      else (db.tick, .referringExternal arrival db.now)
  | .referringExternal arrival storedAt => (db, .referringProcess arrival storedAt)
  | .referringProcess arrival storedAt => (db, .recording arrival storedAt)
  | .recording arrival storedAt =>
      match arrival.outcome with
      | none => (db, .ended (.raised .checkViolation))
      | some outcome =>
          if db.delivery.receipts.any fun row => row.messageId = arrival.messageId then
            (db, .ended (.replied (takenReply db context payload)))
          else (db.tick, .confirming arrival outcome storedAt db.now)
  | .confirming arrival outcome storedAt recordedAt =>
      (db, .releasing arrival outcome storedAt recordedAt)
  | .releasing arrival outcome storedAt recordedAt =>
      (db.tick, .committing arrival outcome storedAt recordedAt
        ((db.unconfirmed? arrival.externalRequestId).map OutboxRow.id))
  | .committing arrival outcome storedAt recordedAt _ =>
      ((db.insertArrival arrival outcome storedAt recordedAt).confirmDelivery
        arrival.externalRequestId,
        .ended (.replied (.ok "RECEIVED" (receiptResult (payload.text? "messageId")
          (payload.text? "externalRequestId") "RECEIVED"))))
  | .ended ending => (db, .ended ending)

end AcceptStage

structure Report where
  outboxId : Nat
  owner : Option String
  leaseVersion : Option Int
  providerPaymentId : Option String
deriving DecidableEq

def Report.covers (report : Report) (row : OutboxRow) : Bool :=
  row.heldBy report.outboxId report.owner report.leaseVersion

inductive SucceedStage
  | called
  | sending (row : OutboxRow)
  | committing (row : OutboxRow) (sent : Bool)
  | ended (reply : OutboxReply)
deriving DecidableEq

def Db.isCreated (db : Db) (externalRequestId : String) : Bool :=
  db.delivery.externalRequests.any fun external =>
    external.id = externalRequestId ∧ external.state = .created

namespace SucceedStage

def request (db : Db) (report : Report) : SucceedStage → Option (Request DeliveryRow)
  | .called =>
      (db.delivery.outbox.find? report.covers).map fun row => ⟨.outbox row.id, .noKeyUpdate⟩
  | .sending row =>
      if db.isCreated row.externalRequestId then
        some ⟨.external row.externalRequestId, .noKeyUpdate⟩
      else none
  | .committing .. | .ended _ => none

def perform (db : Db) (report : Report) : SucceedStage → Db × SucceedStage
  | .called =>
      match db.delivery.outbox.find? report.covers with
      | none => (db, .ended .stale)
      | some row => (db, .sending row)
  | .sending row => (db, .committing row (db.isCreated row.externalRequestId))
  | .committing _ _ =>
      ((succeedOutbox db report.outboxId report.owner report.leaseVersion
        report.providerPaymentId).1, .ended (.delivered report.providerPaymentId))
  | .ended reply => (db, .ended reply)

end SucceedStage

/-! Any number of the two calls, taking turns. -/

inductive DeliveryCall
  | none
  | receiptAccept (context : Context) (payload : Json)
  | succeedOutbox (report : Report)
deriving DecidableEq

inductive DeliveryParty
  | idle
  | accepting (context : Context) (payload : Json) (stage : AcceptStage)
  | reporting (report : Report) (stage : SucceedStage)
deriving DecidableEq

def DeliveryCall.party : DeliveryCall → DeliveryParty
  | .none => .idle
  | .receiptAccept context payload => .accepting context payload .called
  | .succeedOutbox report => .reporting report .called

namespace DeliveryParty

def request (db : Db) : DeliveryParty → Option (Request DeliveryRow)
  | .idle => none
  | .accepting _ _ stage => stage.request db
  | .reporting report stage => stage.request db report

def perform (db : Db) : DeliveryParty → Db × DeliveryParty
  | .idle => (db, .idle)
  | .accepting context payload stage =>
      let done := stage.perform db context payload
      (done.1, .accepting context payload done.2)
  | .reporting report stage =>
      let done := stage.perform db report
      (done.1, .reporting report done.2)

def ended : DeliveryParty → Bool
  | .accepting _ _ (.ended _) | .reporting _ (.ended _) => true
  | _ => false

end DeliveryParty

def deliveryProgram : Program Db DeliveryParty DeliveryRow where
  request := DeliveryParty.request
  perform := DeliveryParty.perform
  ended := DeliveryParty.ended

abbrev DeliveryServer := Server Db DeliveryParty DeliveryRow

def DeliveryServer.start (db : Db) (calls : Nat → DeliveryCall) : DeliveryServer where
  shared := db
  party := fun index => (calls index).party
  locks := []

end PaymentWorkflow
