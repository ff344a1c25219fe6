import PaymentWorkflow.CatalogCore
import PaymentWorkflow.Interleaving

/-!
`ActionEndpoint.Handle` from the catalog lookup on, and `ActionInvoker.InvokeAsync` with the
services it calls and `api.invoke`, statement by statement. A transaction's writes are kept
apart from the committed tables until its COMMIT; a statement that fails discards them.
-/

namespace PaymentWorkflow

/-! JSON documents, as `System.Text.Json` reads them. -/

mutual
def Json.depth : Json → Nat
  | .array items => itemsDepth items + 1
  | .object members => membersDepth members + 1
  | _ => 0

def Json.itemsDepth : List Json → Nat
  | [] => 0
  | item :: rest => max item.depth (itemsDepth rest)

def Json.membersDepth : List (String × Json) → Nat
  | [] => 0
  | (_, value) :: rest => max value.depth (membersDepth rest)
end

/-- A document nested deeper than the default `MaxDepth` does not parse. -/
def parseDocument (value : Json) : Option Json := if value.depth ≤ 64 then some value else none

theorem parseDocument_some {reply root : Json} :
    parseDocument reply = some root ↔ reply.depth ≤ 64 ∧ reply = root := by
  unfold parseDocument
  split <;> simp [*]

namespace JsonElement

inductive Thrown
  | invalidOperation | nullReference
deriving DecidableEq

def tryGetProperty (element : Json) (name : String) : Except Thrown (Option Json) :=
  match element with
  | .object _ => .ok (element.member? name)
  | _ => .error .invalidOperation

def getString : Json → Except Thrown (Option String)
  | .text content => .ok (some content)
  | .null => .ok none
  | _ => .error .invalidOperation

def tryGetString (element : Json) (name : String) : Except Thrown (Option String) := do
  match ← tryGetProperty element name with
  | none => .ok none
  | some value => getString value

def tryGetInt32 : Json → Except Thrown (Option Int)
  | .number value =>
      if value.scale = 0 ∧ -2 ^ 31 ≤ value.mantissa ∧ value.mantissa < 2 ^ 31 then
        .ok (some value.mantissa)
      else .ok none
  | _ => .error .invalidOperation

end JsonElement

inductive SchemaVerdict
  | unloadable | thrown
  | evaluated (valid : Bool)
deriving DecidableEq

structure Packages where
  evaluate : (requireFormat : Bool) → (schema value : Json) → SchemaVerdict
  sha256Hex : String → String

def Packages.isValid (packages : Packages) (schema value : Json) : Bool :=
  packages.evaluate true schema value = .evaluated true

/-! Requests and answers. -/

structure AuthContext where
  principal : String
  consumer : String
  scopes : List String
deriving DecidableEq

/-- A request whose route, version header, token, signature and JSON have passed. -/
structure ActionRequest where
  module : String
  action : String
  explicitVersion : Option Int
  auth : AuthContext
  idempotencyKey : String
  payload : String
  body : Json
deriving DecidableEq

structure RequestState where
  module : String
  action : String
  correlationId : Nat
  requestId : String
  principal : String
  scopes : List String
  payloadHash : String
  explicitVersion : Option Int
  version : Int
  idempotencyScopeKey : Option String
deriving DecidableEq

structure OkBody where
  outcome : String
  result : Option Json
  correlationId : String
  actionVersion : Int
deriving DecidableEq

inductive Answer
  | ok (body : OkBody)
  | replayed (body : OkBody)
  | error (code message : String) (retryable : Bool) (actionVersion : Option Int) (http : Nat)
  | unhandled
deriving DecidableEq

def toHttpCode : String → Nat
  | "access.denied" => 403
  | "action.not_found" => 404
  | "operation.not_found" => 404
  | "receipt.signature_required" => 403
  | "signature.invalid" => 401
  | "receipt.external_request_not_found" => 422
  | "idempotency.conflict" => 409
  | "workflow.decision_conflict" => 409
  | "idempotency.required" => 400
  | "payload.invalid" => 422
  | "internal.error" => 500
  | _ => 422

namespace Envelope

open JsonElement

def okFromStored (response : Json) : Except Thrown OkBody := do
  let outcome ← tryGetString response "outcome"
  let result ← tryGetProperty response "result"
  let correlationId ← match ← tryGetProperty response "meta" with
    | none => .ok none
    | some metadata => tryGetString metadata "correlationId"
  let actionVersion ← match ← tryGetProperty response "meta" with
    | none => .ok none
    | some metadata => do
        match ← tryGetProperty metadata "actionVersion" with
        | none => .ok none
        | some value => tryGetInt32 value
  .ok ⟨outcome.getD "ok", result, correlationId.getD "", actionVersion.getD 0⟩

def domainError (envelope : Json) (version : Int) : Except Thrown Answer := do
  let code ← tryGetString envelope "code"
  let message ← tryGetString envelope "message"
  let code := if code.getD "" = "" then "internal.error" else code.getD ""
  let message := if message.getD "" = "" then "error" else message.getD ""
  .ok (.error code message false (some version) (toHttpCode code))

end Envelope

namespace Answer

def timeout (state : RequestState) : Answer :=
  .error "action.timeout" "timeout" true (some state.version) 504

def unavailable (state : RequestState) : Answer :=
  .error "dependency.unavailable" "db unavailable" true (some state.version) 503

def conflict (state : RequestState) : Answer :=
  .error "idempotency.conflict" "same key different payload" false (some state.version) 409

def contractViolation (state : RequestState) (message : String) : Answer :=
  .error "action.contract_violation" message false (some state.version) 500

end Answer

def buildScopeKey (entry : ActionManifest) (principal consumer module action : String) :
    Option String :=
  match entry.idempotencyScope with
  | .principalAction => some (principal ++ ":" ++ module ++ "." ++ action)
  | .consumerAction => some (consumer ++ ":" ++ module ++ "." ++ action)
  | .globalAction => some (module ++ "." ++ action)
  | .none => none

/-- The request id and `RequestState.Build`; the number of a request stands for its Guid. -/
def RequestState.build (packages : Packages) (correlationId : Nat) (request : ActionRequest)
    (entry : ActionManifest) : RequestState where
  module := request.module
  action := request.action
  correlationId := correlationId
  requestId := if request.idempotencyKey = "" then uuidText correlationId else request.idempotencyKey
  principal := request.auth.principal
  scopes := request.auth.scopes
  payloadHash := packages.sha256Hex request.payload
  explicitVersion := request.explicitVersion
  version := entry.version
  idempotencyScopeKey :=
    if entry.idempotencyMode ≠ .none ∧ request.idempotencyKey ≠ "" then
      buildScopeKey entry request.auth.principal request.auth.consumer request.module request.action
    else none

def checkRequest (packages : Packages) (correlationId : Nat) (request : ActionRequest) :
    Option ActionManifest → Except Answer (RequestState × ActionManifest)
  | none => .error (.error "action.not_found" "unknown action" false request.explicitVersion 404)
  | some entry =>
      if ¬ entry.requiredPolicy.all request.auth.scopes.contains then
        .error (.error "access.denied" "insufficient scope" false (some entry.version) 403)
      else if request.idempotencyKey.length > 128 then
        .error (.error "request.invalid" "invalid idempotency key" false (some entry.version) 400)
      else if entry.idempotencyMode = .required ∧ request.idempotencyKey = "" then
        .error (.error "idempotency.required" "missing key" false (some entry.version) 400)
      else if ¬ packages.isValid entry.requestSchema request.body then
        .error (.error "payload.invalid" "payload does not match schema" false
          (some entry.version) 422)
      else .ok (RequestState.build packages correlationId request entry, entry)

/-! Tables and transactions. -/

structure IdempotencyRow where
  scopeKey : String
  requestId : String
  payloadHash : String
  response : Option Json
deriving DecidableEq

def IdempotencyRow.key (row : IdempotencyRow) : String × String := (row.scopeKey, row.requestId)

inductive DispatchStatus
  | ok | error
deriving DecidableEq

structure DispatchRow where
  correlationId : Nat
  requestId : String
  module : String
  action : String
  version : Int
  principal : String
  payloadHash : String
  status : DispatchStatus
  outcome : Option String
deriving DecidableEq

def RequestState.dispatchRow (state : RequestState) (status : DispatchStatus)
    (outcome : Option String) : DispatchRow where
  correlationId := state.correlationId
  requestId := state.requestId
  module := state.module
  action := state.action
  version := state.version
  principal := state.principal
  payloadHash := state.payloadHash
  status := status
  outcome := outcome

structure Effect where
  request : Nat
  state : RequestState
  entry : ActionManifest
  executed : ActionManifest
  value : Option Json
deriving DecidableEq

structure Transaction where
  claim : Option IdempotencyRow := none
  effect : Option Effect := none
  dispatch : Option DispatchRow := none
  failed : Bool := false
deriving DecidableEq

/-- The server's side of a connection: `committing` has received a COMMIT whose answer the
client will not see. -/
inductive Connection
  | closed
  | live (transaction : Transaction)
  | committing (transaction : Transaction)
deriving DecidableEq

structure ApiDb where
  catalog : Catalog
  idempotency : List IdempotencyRow := []
  dispatches : List DispatchRow := []
  effects : List Effect := []
  received : Nat := 0
deriving DecidableEq

namespace ApiDb

def commit (db : ApiDb) (transaction : Transaction) : ApiDb :=
  if transaction.failed then db
  else
    { db with
      idempotency := db.idempotency ++ transaction.claim.toList
      effects := db.effects ++ transaction.effect.toList
      dispatches := db.dispatches ++ transaction.dispatch.toList }

def stored? (db : ApiDb) (scopeKey requestId : String) : Option IdempotencyRow :=
  db.idempotency.find? fun row => row.key = (scopeKey, requestId)

def logged (db : ApiDb) (correlationId : Nat) : Bool :=
  db.dispatches.any fun row => row.correlationId = correlationId

end ApiDb

/-! `api.invoke` -/

structure InvokeContext where
  principal : String
  correlationId : Nat
  requestId : String
  scopes : List String
  recordDispatch : Bool
  payloadHash : String

inductive TargetRun
  | unregistered | raised
  | returned (value : Option Json)
deriving DecidableEq

def TargetRun.value : TargetRun → Option Json
  | .returned value => value
  | .unregistered | .raised => none

/-- The envelope `api.invoke` returns, the row whose target's changes it leaves in the
transaction, and the dispatch it records. -/
structure Invocation where
  reply : Json
  executed : Option ActionManifest := none
  dispatch : Option DispatchRow := none

inductive InvokeFailure
  | invalidRecordContext | uniqueViolation
deriving DecidableEq

def hasStatus : Json → Bool
  | .object members => ((Json.object members).member? "status").isSome
  | .array items => items.contains (.text "status")
  | .text content => content = "status"
  | _ => false

def errorReply (code message : String) (correlationId : Nat) (version : Option Int) : Json :=
  .object [
    ("status", .text "error"), ("code", .text code), ("message", .text message),
    ("retryable", .bool false), ("details", .object []),
    ("meta", .object [
      ("correlationId", .text (uuidText correlationId)),
      ("actionVersion", version.elim .null fun number => .number (Decimal.ofInt number))])]

def recordedDispatch (dispatches : List DispatchRow) (row : ActionManifest)
    (context : InvokeContext) (value : Json) : Except InvokeFailure (Option DispatchRow) :=
  if ¬ context.recordDispatch then .ok none
  else if context.requestId = "" then .error .invalidRecordContext
  else if value.text? "status" ≠ some "ok" then .ok none
  else if dispatches.any fun other => other.correlationId = context.correlationId then
    .error .uniqueViolation
  else
    .ok (some {
      correlationId := context.correlationId, requestId := context.requestId
      module := row.module, action := row.action, version := row.version
      principal := context.principal, payloadHash := context.payloadHash
      status := .ok, outcome := value.text? "outcome" })

def apiInvoke (db : ApiDb) (module action : String) (version : Option Int)
    (context : InvokeContext) (target : TargetRun) : Except InvokeFailure Invocation :=
  match db.catalog.invoked module action version with
  | .error message =>
      .ok { reply := errorReply "action.not_found" message context.correlationId version }
  | .ok row =>
      let refuse (code message : String) : Json :=
        errorReply code message context.correlationId (some row.version)
      if ¬ row.requiredPolicy.all context.scopes.contains then
        .ok { reply := refuse "access.denied" "insufficient policy" }
      else
        match target with
        | .unregistered => .ok { reply := refuse "internal.error" "invalid target signature" }
        | .raised => .ok { reply := refuse "internal.error" "target failed" }
        | .returned none =>
            .ok { reply := refuse "internal.error" "invalid target envelope", executed := some row }
        | .returned (some value) =>
            if ¬ hasStatus value then
              .ok { reply := refuse "internal.error" "invalid target envelope"
                    executed := some row }
            else do
              let dispatch ← recordedDispatch db.dispatches row context value
              .ok { reply := value, executed := some row, dispatch }

/-! `ActionInvoker.InvokeAsync` -/

inductive EnvelopeVerdict
  | domainError
  | contractViolation (message : String) (outcome : Option String)
  | accepted (outcome : String) (result : Json)
deriving DecidableEq

open JsonElement in
def checkEnvelope (packages : Packages) (entry : ActionManifest) (reply : Json) :
    Except Thrown EnvelopeVerdict :=
  match parseDocument reply with
  | none => .ok (.contractViolation "invalid envelope" none)
  | some root => do
      let status ← tryGetString root "status"
      if status = some "error" then .ok .domainError
      else
        match ← tryGetString root "outcome" with
        | none => .ok (.contractViolation "unknown outcome" none)
        | some outcome =>
            if ¬ entry.outcomes.contains outcome then
              .ok (.contractViolation "unknown outcome" none)
            else
              match ← tryGetProperty root "result" with
              | none => .ok (.contractViolation "missing result" (some outcome))
              | some result =>
                  if ¬ packages.isValid entry.responseSchema result then
                    .ok (.contractViolation "result schema violation" (some outcome))
                  else .ok (.accepted outcome result)

inductive FlightPhase
  | called
  | begun
  | conflicted
  | cleared
  | claimed
  | rejected (outcome : Option String) (answer : Answer)
  | rolledBack (outcome : Option String) (answer : Answer)
  | accepted (reply : Json) (outcome : String) (result : Json)
  | logged (reply : Json) (outcome : String) (result : Json)
  | stored (outcome : String) (result : Json)
  | answered (answer : Answer)
deriving DecidableEq

structure Flight where
  state : RequestState
  entry : ActionManifest
  phase : FlightPhase := .called
  session : Connection := .closed
  expired : Bool := false
  broken : Bool := false
deriving DecidableEq

/-- How a statement fails: the server refuses it, the request's token is cancelled while it
runs, or the connection is lost. -/
inductive Fault
  | refused | cancelled | lost
deriving DecidableEq

inductive Exception
  | operationCanceled | npgsql
deriving DecidableEq

/-- One step of an invocation: a statement with the fault it meets, the token's timer, or
the server ending its side of the connection. -/
inductive Input
  | begin (fault : Option Fault)
  | claim (fault : Option Fault)
  | rollBack (fault : Option Fault)
  | read (fault : Option Fault)
  | invoke (target : TargetRun) (fault : Option Fault)
  | logError (written : Bool)
  | log (fault : Option Fault)
  | store (fault : Option Fault)
  | commit (fault : Option Fault)
  | expire
  | drop
  | settle (committed : Bool)
deriving DecidableEq

namespace Flight

variable (packages : Packages) (db : ApiDb) (flight : Flight)

def answer (answer : Answer) : Flight := { flight with phase := .answered answer }

def abort : Flight := { flight with session := .live { failed := true } }

/-- The handlers of `InvokeAsync`; what they leave open ends with the connection. -/
def caught : Exception → Flight
  | .operationCanceled => flight.answer (.timeout flight.state)
  | .npgsql => flight.answer (.unavailable flight.state)

def send (fault : Option Fault) : Except (Exception × Flight) Transaction :=
  if flight.broken then .error (.npgsql, flight)
  else if flight.expired then .error (.operationCanceled, flight)
  else
    match flight.session, fault with
    | .live transaction, none => .ok transaction
    | .live _, some .refused => .error (.npgsql, flight.abort)
    | .live _, some .cancelled => .error (.operationCanceled, { flight.abort with expired := true })
    | _, _ => .error (.npgsql, { flight with broken := true })

def execute (fault : Option Fault) : Except (Exception × Flight) Transaction :=
  match flight.send fault with
  | .error raised => .error raised
  | .ok transaction => if transaction.failed then .error (.npgsql, flight) else .ok transaction

def begin (fault : Option Fault) : Flight :=
  match fault with
  | some _ => flight.answer (.unavailable flight.state)
  | none =>
      { flight with
        session := .live {}
        phase := if flight.state.idempotencyScopeKey.isSome then .begun else .claimed }

/-- `ClaimAsync`: it waits while another transaction holds a row of the key. -/
def claim (scopeKey : String) (blocked : Bool) (fault : Option Fault) : Flight :=
  match flight.execute fault with
  | .error (exception, hit) => hit.caught exception
  | .ok transaction =>
      if blocked then flight
      else if (db.stored? scopeKey flight.state.requestId).isSome then
        { flight.abort with phase := .conflicted }
      else
        { flight with
          session := .live { transaction with
            claim := some ⟨scopeKey, flight.state.requestId, flight.state.payloadHash, none⟩ }
          phase := .claimed }

def rollBackClaim (fault : Option Fault) : Flight :=
  match flight.send fault with
  | .error (exception, hit) => hit.caught exception
  | .ok _ => { flight with session := .closed, phase := .cleared }

def read (scopeKey : String) (fault : Option Fault) : Flight :=
  match fault with
  | some _ => flight.answer (.unavailable flight.state)
  | none =>
      match db.stored? scopeKey flight.state.requestId with
      | none => flight.answer (.conflict flight.state)
      | some existing =>
          match existing.response with
          | none => flight.answer (.conflict flight.state)
          | some response =>
              if existing.payloadHash = flight.state.payloadHash then
                match Envelope.okFromStored response with
                | .ok body => flight.answer (.replayed body)
                | .error _ => flight.answer .unhandled
              else flight.answer (.conflict flight.state)

def context : InvokeContext where
  principal := flight.state.principal
  correlationId := flight.state.correlationId
  requestId := flight.state.requestId
  scopes := flight.state.scopes
  recordDispatch := false
  payloadHash := flight.state.payloadHash

def judge (reply : Json) : FlightPhase :=
  match checkEnvelope packages flight.entry reply with
  | .error _ => .answered .unhandled
  | .ok .domainError =>
      match Envelope.domainError reply flight.state.version with
      | .ok answer => .rejected none answer
      | .error _ => .rejected none .unhandled
  | .ok (.contractViolation message outcome) =>
      .rejected outcome (.contractViolation flight.state message)
  | .ok (.accepted outcome result) => .accepted reply outcome result

def invoke (target : TargetRun) (fault : Option Fault) : Flight :=
  match flight.execute fault with
  | .error (exception, hit) => hit.caught exception
  | .ok transaction =>
      match apiInvoke db flight.state.module flight.state.action flight.state.explicitVersion
          flight.context target with
      | .error _ => flight.abort.caught .npgsql
      | .ok invocation =>
          let effect := invocation.executed.map fun executed =>
            { request := flight.state.correlationId, state := flight.state, entry := flight.entry
              executed, value := target.value }
          { flight with
            session := .live { transaction with effect, dispatch := invocation.dispatch }
            phase := flight.judge packages invocation.reply }

def rollBackRejected (outcome : Option String) (reject : Answer) (fault : Option Fault) : Flight :=
  match flight.session, fault with
  | .live _, none => { flight with session := .closed, phase := .rolledBack outcome reject }
  | _, _ => { flight with broken := true }.caught .npgsql

/-- `LogAsync` in the transaction: whatever it throws is swallowed. -/
def log (outcome : String) (fault : Option Fault) : Flight :=
  match flight.execute fault with
  | .error (_, hit) => hit
  | .ok transaction =>
      if db.logged flight.state.correlationId then flight.abort
      else
        { flight with
          session := .live { transaction with
            dispatch := some (flight.state.dispatchRow .ok (some outcome)) } }

def store (reply : Json) (fault : Option Fault) : Flight :=
  match flight.execute fault with
  | .error (_, hit) => hit
  | .ok transaction =>
      { flight with
        session := .live { transaction with
          claim := transaction.claim.map fun row => { row with response := some reply } } }

def okAnswer (outcome : String) (result : Json) : Answer :=
  .ok ⟨outcome, some result, uuidText flight.state.correlationId, flight.state.version⟩

/-- `CommitAsync`; the COMMIT of a failed transaction rolls back and raises nothing. -/
def commit (outcome : String) (result : Json) (fault : Option Fault) : ApiDb × Flight :=
  if flight.broken then (db, flight.answer .unhandled)
  else if flight.expired then (db, flight.caught .operationCanceled)
  else
    match flight.session, fault with
    | .live transaction, none =>
        (db.commit transaction,
          { flight with session := .closed }.answer (flight.okAnswer outcome result))
    | .live _, some .refused => (db, { flight with session := .closed }.caught .npgsql)
    | .live transaction, some .cancelled =>
        (db, { flight with session := .committing transaction, expired := true }.caught
          .operationCanceled)
    | .live transaction, some .lost =>
        (db, { flight with session := .committing transaction, broken := true }.caught .npgsql)
    | _, _ => (db, { flight with broken := true }.caught .npgsql)

/-- The step of an invocation; an input its phase does not wait for changes nothing. -/
def step (blocked : Bool) (input : Input) : ApiDb × Flight :=
  match input, flight.phase, flight.state.idempotencyScopeKey with
  | .begin fault, .called, _ => (db, flight.begin fault)
  | .claim fault, .begun, some scopeKey => (db, flight.claim db scopeKey blocked fault)
  | .rollBack fault, .conflicted, _ => (db, flight.rollBackClaim fault)
  | .read fault, .cleared, some scopeKey => (db, flight.read db scopeKey fault)
  | .invoke target fault, .claimed, _ => (db, flight.invoke packages db target fault)
  | .rollBack fault, .rejected outcome reject, _ =>
      (db, flight.rollBackRejected outcome reject fault)
  | .logError written, .rolledBack outcome reject, _ =>
      (if written ∧ ¬ db.logged flight.state.correlationId then
          { db with dispatches := db.dispatches ++ [flight.state.dispatchRow .error outcome] }
        else db,
        flight.answer reject)
  | .log fault, .accepted reply outcome result, some _ =>
      (db, { flight.log db outcome fault with phase := .logged reply outcome result })
  | .log fault, .accepted _ outcome result, none =>
      (db, { flight.log db outcome fault with phase := .stored outcome result })
  | .store fault, .logged reply outcome result, _ =>
      (db, { flight.store reply fault with phase := .stored outcome result })
  | .commit fault, .stored outcome result, _ => flight.commit db outcome result fault
  | .expire, _, _ => (db, { flight with expired := true })
  | .drop, _, _ =>
      match flight.session with
      | .live _ => (db, { flight with session := .closed })
      | _ => (db, flight)
  | .settle committed, _, _ =>
      match flight.session with
      | .committing transaction =>
          (if committed then db.commit transaction else db, { flight with session := .closed })
      | _ => (db, flight)
  | _, _, _ => (db, flight)

end Flight

/-! The API: any number of requests in flight, and the publisher next to them. -/

inductive Slot
  | free
  | received (request : ActionRequest)
  | turnedAway (answer : Answer)
  | invoking (flight : Flight)
deriving DecidableEq

abbrev Api := Interleaving.World ApiDb Slot

inductive ApiEvent
  | receive (request : ActionRequest)
  | handle (index : Nat) (reached : Bool)
  | statement (index : Nat) (input : Input)
  | catalog (call : CatalogCall)

def Transaction.holds (transaction : Transaction) (key : String × String) : Bool :=
  transaction.claim.any fun row => row.key = key

def Connection.holds (key : String × String) : Connection → Bool
  | .closed => false
  | .live transaction | .committing transaction => transaction.holds key

def Slot.holds (key : String × String) : Slot → Bool
  | .invoking flight => flight.session.holds key
  | _ => false

def Api.blocked (api : Api) (index : Nat) (flight : Flight) : Bool :=
  flight.state.idempotencyScopeKey.any fun scopeKey =>
    (List.range api.shared.received).any fun other =>
      other ≠ index && (api.party other).holds (scopeKey, flight.state.requestId)

def Slot.handle (packages : Packages) (catalog : Catalog) (index : Nat) (request : ActionRequest)
    (reached : Bool) : Slot :=
  if ¬ reached then
    .turnedAway (.error "dependency.unavailable" "db unavailable" true request.explicitVersion 503)
  else
    match checkRequest packages index request
        (catalog.getOrDefault request.module request.action request.explicitVersion) with
    | .error answer => .turnedAway answer
    | .ok (state, entry) => .invoking { state, entry }

def Api.step (packages : Packages) (registered : String → String → Bool) (api : Api) :
    ApiEvent → Api
  | .receive request =>
      api.turn api.shared.received { api.shared with received := api.shared.received + 1 }
        (.received request)
  | .handle index reached =>
      match api.party index with
      | .received request =>
          api.turn index api.shared
            (Slot.handle packages api.shared.catalog index request reached)
      | _ => api
  | .statement index input =>
      match api.party index with
      | .invoking flight =>
          let moved := flight.step packages api.shared (api.blocked index flight) input
          api.turn index moved.1 (.invoking moved.2)
      | _ => api
  | .catalog call =>
      { api with shared := { api.shared with
          catalog := call.committed registered api.shared.catalog } }

def Api.start (catalog : Catalog) : Api := ⟨{ catalog }, fun _ => .free⟩

end PaymentWorkflow
