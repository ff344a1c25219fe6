import PaymentWorkflow.EngineCore
import PaymentWorkflow.TextCore

/-! The outbox functions of schema delivery and `payment.receipt_accept_v1`. -/

namespace PaymentWorkflow

namespace Db

@[simps] def updateOutbox (db : Db) (matched : OutboxRow → Bool) (change : OutboxRow → OutboxRow) :
    Db :=
  { db with delivery := { db.delivery with
      outbox := Table.update matched change db.delivery.outbox } }

@[simps] def updateExternal (db : Db) (matched : ExternalRequest → Bool)
    (change : ExternalRequest → ExternalRequest) : Db :=
  { db with delivery := { db.delivery with
      externalRequests := Table.update matched change db.delivery.externalRequests } }

@[simps] def insertOutbox (db : Db) (externalRequestId : String) (correlationId : Nat) : Db :=
  { db with
    delivery := { db.delivery with
      outbox := db.delivery.outbox ++ [{
        id := db.nextId, externalRequestId, correlationId, state := .pending
        leaseOwner := none, leaseVersion := 0, leaseUntil := none, attemptCount := 0
        nextAttemptAt := some db.now, lastErrorCode := none
        createdAt := db.clock (db.ticks + 1) }] }
    nextId := db.nextId + 1
    ticks := db.ticks + 2 }

@[simps] def insertExternal (db : Db) (operation : Operation) (correlationId : Nat) : Db :=
  { db with
    delivery := { db.delivery with
      externalRequests := db.delivery.externalRequests ++ [{
        id := uuidText db.nextId, operationId := operation.id, correlationId
        amount := operation.amount, currency := operation.currency, state := .created }] }
    nextId := db.nextId + 1 }

@[simps] def insertReceipt (db : Db) (messageId externalRequestId : String) (processId : Nat)
    (outcome : ReceiptOutcome) (bodyHash : String) (body : Json) : Db :=
  { db with
    delivery := { db.delivery with
      inbox := db.delivery.inbox ++ [{
        messageId, externalRequestId, processId, signalType := "payment.receipt", bodyHash
        payload := body, state := .received, receivedAt := db.now }]
      receipts := db.delivery.receipts ++ [{
        messageId, externalRequestId, outcome, bodyHash, body
        receivedAt := db.clock (db.ticks + 1), appliedAt := none }] }
    ticks := db.ticks + 2 }

end Db

structure OutboxClaim where
  outboxId : Nat
  leaseVersion : Nat
  externalRequestId : String
  correlationId : Nat
  amount : Option String
  currency : Option String
deriving DecidableEq

def OutboxRow.claimableAt (row : OutboxRow) (reading : Time) : Bool :=
  ((row.state = .pending ∨ row.state = .retryWait) ∧ row.nextAttemptAt.all (· ≤ reading)) ∨
    (row.state = .leased ∧ row.leaseUntil.any (· < reading))

def Db.pickOutbox (db : Db) (limit : Option Int) (locked : Nat → Bool) : List OutboxRow :=
  Table.takeLimit limit
    (((db.delivery.outbox.filter fun row => row.claimableAt (db.clock (db.ticks + row.id))).insertionSort
      (fun left right => left.createdAt < right.createdAt ∨
        (left.createdAt = right.createdAt ∧ left.id ≤ right.id))).filter
      fun row => !locked row.id)

/-- The UPDATE of `claim_outbox`. Each row evaluates `clock_timestamp()` anew. -/
def Db.leaseOutbox (db : Db) (owner : String) (picked : List OutboxRow) : Db :=
  db.updateOutbox (fun row => picked.any fun claimed => claimed.id = row.id) fun row =>
    { row with
      state := .leased, leaseOwner := some owner, leaseVersion := row.leaseVersion + 1
      leaseUntil := some (db.clock (db.ticks + db.nextId + row.id) + milliseconds 30000)
      attemptCount := row.attemptCount + 1, nextAttemptAt := none }

def claimOutbox (db : Db) (owner : String) (limit : Option Int) (locked : Nat → Bool) :
    Except SqlError (Db × List OutboxClaim) :=
  if owner = "" then .error (.deliveryClaimInvalid "owner is required")
  else if limit.any fun count => count < 1 ∨ count > 100 then
    .error (.deliveryClaimInvalid "invalid batch size")
  else
    let picked := db.pickOutbox limit locked
    let leased := db.leaseOutbox owner picked
    let claims := picked.map fun row =>
      let external := Table.lookup ExternalRequest.id row.externalRequestId
        db.delivery.externalRequests
      ⟨row.id, row.leaseVersion + 1, row.externalRequestId, row.correlationId,
        external.map fun request => numericText request.amount,
        external.map ExternalRequest.currency⟩
    .ok ({ leased with ticks := leased.ticks + 2 * leased.nextId }, claims)

/-- The WHERE clause that fences a dispatcher's report: a NULL argument matches no row. -/
def OutboxRow.heldBy (row : OutboxRow) (outboxId : Nat) (owner : Option String)
    (leaseVersion : Option Int) : Bool :=
  row.id = outboxId ∧ owner ≠ none ∧ row.leaseOwner = owner ∧
    leaseVersion = some (row.leaseVersion : Int) ∧ row.state = .leased

inductive OutboxReply
  | stale
  | delivered (providerPaymentId : Option String)
  | scheduled (nextAttemptAt : Int)
  | dead (errorCode : Option String)
deriving DecidableEq

def succeedOutbox (db : Db) (outboxId : Nat) (owner : Option String) (leaseVersion : Option Int)
    (providerPaymentId : Option String) : Db × OutboxReply :=
  match db.delivery.outbox.find? fun row => row.heldBy outboxId owner leaseVersion with
  | none => (db, .stale)
  | some row =>
      (((db.updateOutbox (fun other => other.heldBy outboxId owner leaseVersion) fun other =>
        { other with state := .delivered, leaseOwner := none, leaseUntil := none }).updateExternal
          (fun external => external.id = row.externalRequestId ∧ external.state = .created)
          fun external => { external with state := .sent }).tick,
        .delivered providerPaymentId)

def isRetryableCode (errorCode : Option String) : Bool :=
  errorCode.any fun code => ".retryable".toList.isSuffixOf code.toList

/-- `COALESCE(delays_ms[attempts], 1000)`, an array counted from 1. -/
def OutboxPolicy.delayAt (policy : OutboxPolicy) (attempts : Nat) : Int :=
  if attempts = 0 then 1000 else policy.delaysMs[attempts - 1]?.getD 1000

def failOutbox (db : Db) (outboxId : Nat) (owner : Option String) (leaseVersion : Option Int)
    (errorCode : Option String) : Db × OutboxReply :=
  match db.delivery.outbox.find? fun row => row.heldBy outboxId owner leaseVersion with
  | none => (db, .stale)
  | some row =>
      let retryDelay := match db.config.outboxPolicy with
        | none => none
        | some policy =>
            if isRetryableCode errorCode ∧ (row.attemptCount : Int) < policy.maxAttempts then
              some (policy.delayAt row.attemptCount)
            else none
      match retryDelay with
      | some delay =>
          ((db.updateOutbox (fun other => other.heldBy outboxId owner leaseVersion) fun other =>
            { other with
              state := .retryWait, leaseOwner := none, leaseUntil := none
              nextAttemptAt := some (db.now + milliseconds delay)
              lastErrorCode := errorCode }).tick, .scheduled delay)
      | none =>
          (db.updateOutbox (fun other => other.heldBy outboxId owner leaseVersion) fun other =>
            { other with
              state := .dead, leaseOwner := none, leaseUntil := none
              lastErrorCode := errorCode }, .dead errorCode)

/-! `api.invoke` passes the action a context built by the server. -/

structure Context where
  principal : Option String
  requestId : Option String
  correlationId : Option String
  scopes : List String
  recordDispatch : Bool := false
  signatureVerified : Option Bool := none
  signatureVersion : Option Int := none
  bodySha256 : Option String := none
deriving DecidableEq

def ReceiptOutcome.ofText? : String → Option ReceiptOutcome
  | "COMPLETED" => some .completed
  | "REJECTED" => some .rejected
  | _ => none

def ReceiptOutcome.text : ReceiptOutcome → String
  | .completed => "COMPLETED"
  | .rejected => "REJECTED"

def InboxState.text : InboxState → String
  | .received => "RECEIVED"
  | .applied => "APPLIED"
  | .conflict => "CONFLICT"

def intArgument (payload : Json) (key : String) : Except SqlError (Option Int) :=
  match payload.text? key with
  | none => .ok none
  | some content =>
      match castInt content with
      | none => .error .castFailure
      | some value => .ok (some value)

def textOrNull (value : Option String) : Json := (value.map Json.text).getD .null

def receiptResult (messageId externalRequestId : Option String) (state : String) : Json :=
  .object [("messageId", textOrNull messageId), ("externalRequestId", textOrNull externalRequestId),
    ("state", .text state)]

def receiptBody (payload : Json) : Json :=
  .object [
    ("externalRequestId", textOrNull (payload.text? "externalRequestId")),
    ("messageId", textOrNull (payload.text? "messageId")),
    ("occurredAt", textOrNull (payload.text? "occurredAt")),
    ("outcome", textOrNull (payload.text? "outcome")),
    ("providerPaymentId", textOrNull (payload.text? "providerPaymentId")),
    ("version", .number (.ofInt 1))]

def Db.confirmDelivery (db : Db) (externalRequestId : String) : Db :=
  (db.updateExternal (fun external => external.id = externalRequestId) fun external =>
    { external with state := .confirmed }).updateOutbox
      (fun row => row.externalRequestId = externalRequestId ∧ row.state ≠ .confirmed) fun row =>
        { row with state := .confirmed, leaseOwner := none, leaseUntil := none }

def Db.message? (db : Db) (messageId : Option String) : Option InboxRow :=
  messageId.bind fun id => Table.lookup InboxRow.messageId id db.delivery.inbox

def duplicateReply (existing : InboxRow) (bodyHash : String) (messageId externalRequestId : Option String)
    (conflict : String) : Envelope :=
  if existing.bodyHash = bodyHash then
    .ok "DUPLICATE" (receiptResult messageId externalRequestId existing.state.text)
  else .error "idempotency.conflict" conflict

def storeReceipt (db : Db) (external : ExternalRequest) (bodyHash : String) (payload : Json) :
    Except SqlError (Db × Envelope) :=
  match db.message? (payload.text? "messageId") with
  | some existing =>
      .ok (db, duplicateReply existing bodyHash (payload.text? "messageId")
        (payload.text? "externalRequestId") "messageId is already used with a different body")
  | none =>
      let processId := (Table.lookup Operation.id external.operationId db.payment.operations).bind
        Operation.processId
      match payload.text? "messageId", processId, payload.text? "outcome" with
      | some messageId, some processId, some outcomeText =>
          match ReceiptOutcome.ofText? outcomeText with
          | none => .error .checkViolation
          | some outcome =>
              if db.delivery.receipts.any fun row => row.messageId = messageId then
                .error .uniqueViolation
              else
                .ok ((db.insertReceipt messageId external.id processId outcome bodyHash
                  (receiptBody payload)).confirmDelivery external.id |>.tick,
                  .ok "RECEIVED" (receiptResult (payload.text? "messageId")
                    (payload.text? "externalRequestId") "RECEIVED"))
      | _, _, _ => .error .notNullViolation

def receiptAcceptBody (db : Db) (context : Context) (payload : Json) (version : Option Int) :
    Except SqlError (Db × Envelope) :=
  if context.signatureVerified ≠ some true then
    .ok (db, .error "receipt.signature_required" "signature is required")
  else if context.signatureVersion ≠ some 1 then
    .ok (db, .error "signature.invalid" "unsupported signature version")
  else if version ≠ some 1 then
    .ok (db, .error "payload.invalid" "unsupported receipt version")
  else
    match context.bodySha256 with
    | none => .ok (db, .error "signature.invalid" "body hash is missing")
    | some bodyHash =>
        if ¬ isSha256Hex bodyHash then
          .ok (db, .error "signature.invalid" "body hash is missing")
        else if ¬ (payload.text? "occurredAt").any isOccurredAt then
          .ok (db, .error "payload.invalid" "invalid occurredAt")
        else
          match (payload.text? "externalRequestId").bind fun id =>
              Table.lookup ExternalRequest.id id db.delivery.externalRequests with
          | none => .ok (db, .error "receipt.external_request_not_found" "unknown external request")
          | some external => storeReceipt db external bodyHash payload

def receiptAcceptV1 (db : Db) (context : Context) (payload : Json) :
    Except SqlError (Db × Envelope) := do
  let version ← intArgument payload "version"
  match receiptAcceptBody db context payload version with
  | .error .uniqueViolation =>
      match db.message? (payload.text? "messageId"), context.bodySha256 with
      | some existing, some bodyHash =>
          .ok (db, duplicateReply existing bodyHash (payload.text? "messageId")
            (payload.text? "externalRequestId") "messageId is already used")
      | _, _ => .ok (db, .error "idempotency.conflict" "messageId is already used")
  | result => result

end PaymentWorkflow
