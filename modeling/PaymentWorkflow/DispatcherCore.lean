import Mathlib
import PaymentWorkflow.AdapterCore

/-! `dispatcher.py` and the HTTP client it sends with. -/

namespace PaymentWorkflow.Dispatcher

open Python (Text Value literal)

/-- An OSError (URLError and the timeouts are), or an exception of another class. -/
inductive Fault
  | os
  | other
deriving DecidableEq

inductive Method
  | post
  | get
deriving DecidableEq

/--
What a request meets. A body may break off while it is read. A redirect is an answer whose Location
the opener can go to, and what it meets there; a file fetched by FTP comes without a status, and a
misdirected answer has a Location that `urlparse` does not take. A Location of another scheme than
http, https and ftp makes no difference.
-/
inductive Reply
  | broken (fault : Fault)
  | answered (status : Nat) (body : Except Fault ByteArray)
  | statusless (body : Except Fault ByteArray)
  | redirect (status : Nat) (body : Except Fault ByteArray) (url : String) (target : Reply)
  | misdirected (status : Nat) (body : Except Fault ByteArray)

def isRedirect (status : Nat) : Bool :=
  status = 301 || status = 302 || status = 303 || status = 307 || status = 308

def Method.follows (method : Method) (status : Nat) : Bool :=
  match method with
  | .post => status = 301 || status = 302 || status = 303
  | .get => isRedirect status

/-- `max_repeats` and `max_redirections`; the first redirect of a request is not tested. -/
def isLoop (visited : List String) (url : String) : Bool :=
  4 ≤ visited.count url || 10 ≤ visited.dedup.length

inductive Opened
  | response (status : Option Nat) (body : Except Fault ByteArray)
  | httpError (status : Nat) (body : Except Fault ByteArray)
  | raised (fault : Fault)

def Opened.ofStatus (status : Nat) (body : Except Fault ByteArray) : Opened :=
  if 200 ≤ status ∧ status < 300 then .response status body else .httpError status body

/-- The requests sent, and how it ends. A redirect is followed once its body has been read;
`visited` are the Locations gone to before. -/
def urlopen (method : Method) (visited : List String) : Reply → List Method × Opened
  | .broken fault => ([method], .raised fault)
  | .answered status body => ([method], .ofStatus status body)
  | .statusless body => ([method], .response none body)
  | .redirect status body url target =>
      if method.follows status ∧ ¬ isLoop visited url then
        match body with
        | .error fault => ([method], .raised fault)
        | .ok _ =>
            let (sent, opened) := urlopen .get (url :: visited) target
            (method :: sent, opened)
      else ([method], .ofStatus status body)
  | .misdirected status body =>
      -- a ValueError, before the method is looked at
      ([method], if isRedirect status then .raised .other else .ofStatus status body)

inductive Posted
  | answer (status : Option Nat) (body : ByteArray)
  | httpError
  | raised

/-- The clauses of `post_json`. A fault of `error.read()` is raised inside one, past the others. -/
def Opened.posted : Opened → Posted
  | .response status (.ok body) => .answer status body
  | .response _ (.error .os) => .httpError
  | .response _ (.error .other) => .raised
  | .httpError status (.ok body) => .answer status body
  | .httpError _ (.error _) => .raised
  | .raised .os => .httpError
  | .raised .other => .raised

def postJson (reply : Reply) : List Method × Posted :=
  let (sent, opened) := urlopen .post [] reply
  (sent, opened.posted)

/-- What `json.loads` does: a JSONDecodeError is one of the ValueErrors it may raise. -/
inductive Loaded
  | value (value : Value)
  | malformed
  | raised

/-- What binding a text to a parameter does: psycopg may raise an error of its own or another. -/
inductive Bound
  | taken (content : String)
  | refused
  | raised

structure Libraries where
  loads : Text → Loaded
  bind : Text → Bound

def isText (value : Option Value) (content : Text) : Bool :=
  match value with
  | some (.text shown) => shown = content
  | _ => false

def acceptedPayment? : Value → Option Text
  | .dict members =>
      match get? members (literal "providerPaymentId") with
      | some (.text paymentId) =>
          if (members.all fun member => member.1 = literal "providerPaymentId" ∨
                member.1 = literal "status") ∧
              isText (get? members (literal "status")) (literal "ACCEPTED") ∧ paymentId ≠ [] then
            some paymentId
          else none
      | _ => none
  | _ => none

inductive Classified
  | success (paymentId : Text)
  | failure (errorCode : String)
  | raised

def isRetryableStatus (status : Nat) : Bool :=
  status = 408 || status = 429 || (500 ≤ status && status ≤ 599)

/-- `None` is compared with 500: a TypeError. -/
def classifyResponse (libraries : Libraries) (status : Option Nat) (body : ByteArray) :
    Classified :=
  match status with
  | none => .raised
  | some status =>
      if status = 202 then
        match Python.decode body with
        | none => .failure "response.invalid.terminal"
        | some text =>
            match libraries.loads text with
            | .malformed => .failure "response.invalid.terminal"
            | .raised => .raised
            | .value payload =>
                match acceptedPayment? payload with
                | some paymentId => .success paymentId
                | none => .failure "response.invalid.terminal"
      else if isRetryableStatus status then
        .failure ("http." ++ toString status ++ ".retryable")
      else .failure ("http." ++ toString status ++ ".terminal")

structure DispatcherConfig where
  providerUrl : String
  owner : String
  claimBatch : Int

structure ProviderRequest where
  url : String
  body : ByteArray
  idempotencyKey : String
  correlation : String
deriving DecidableEq

def ofColumn : Option String → Value
  | none => .null
  | some content => .text (literal content)

def providerValue (externalRequestId : String) (amount currency : Option String) : Value :=
  .dict [
    (literal "operationId", .text (literal externalRequestId)),
    (literal "amount", ofColumn amount),
    (literal "currency", ofColumn currency)]

/-- `none` for a UnicodeEncodeError. -/
def providerBody (externalRequestId : String) (amount currency : Option String) :
    Option ByteArray :=
  Python.encode (Python.dumps false (providerValue externalRequestId amount currency))

def paymentsUrl (providerUrl : String) : String :=
  String.ofList (providerUrl.toList.rdropWhile (· = '/')) ++ "/payments"

def buildProviderRequest (config : DispatcherConfig) (row : OutboxClaim) :
    Option ProviderRequest :=
  (providerBody row.externalRequestId row.amount row.currency).map fun body =>
    { url := paymentsUrl config.providerUrl, body, idempotencyKey := row.externalRequestId
      correlation := uuidText row.correlationId }

structure Report where
  owner : String
  outboxId : Nat
  leaseVersion : Nat
  result : Except String String

def Report.perform (report : Report) (db : Db) : Db :=
  match report.result with
  | .ok paymentId => (succeedOutbox db report.outboxId (some report.owner)
      (some (report.leaseVersion : Int)) (some paymentId)).1
  | .error errorCode => (failOutbox db report.outboxId (some report.owner)
      (some (report.leaseVersion : Int)) (some errorCode)).1

inductive Event
  | posted (request : ProviderRequest)
  | fetched
  | reported (report : Report)

def Event.ofMethod (request : ProviderRequest) : Method → Event
  | .post => .posted request
  | .get => .fetched

structure Run where
  events : List Event
  db : Db
  aborted : Bool

def Run.report (sent : List Event) (db : Db) (report : Report) : Run :=
  { events := sent ++ [.reported report], db := report.perform db, aborted := false }

/--
`_attempt`, with the psycopg.Error that `run_once` lets pass. Binding is done before the call: a
text that cannot be bound is not reported.
-/
def attempt (libraries : Libraries) (config : DispatcherConfig) (reply : Reply) (db : Db)
    (row : OutboxClaim) : Run :=
  match buildProviderRequest config row with
  | none => ⟨[], db, true⟩
  | some request =>
      let (methods, posted) := postJson reply
      let sent := methods.map (Event.ofMethod request)
      let report := fun result => Run.report sent db
        ⟨config.owner, row.outboxId, row.leaseVersion, result⟩
      match posted with
      | .raised => ⟨sent, db, true⟩
      | .httpError => report (.error "transport.error.retryable")
      | .answer status body =>
          match classifyResponse libraries status body with
          | .raised => ⟨sent, db, true⟩
          | .failure errorCode => report (.error errorCode)
          | .success paymentId =>
              match libraries.bind paymentId with
              | .taken stored => report (.ok stored)
              | .refused => ⟨sent, db, false⟩
              | .raised => ⟨sent, db, true⟩

structure Outside where
  provider : OutboxClaim → Reply
  meanwhile : OutboxClaim → Db → Db

def runRows (libraries : Libraries) (config : DispatcherConfig) (outside : Outside) :
    Db → List OutboxClaim → Run
  | db, [] => ⟨[], db, false⟩
  | db, row :: rest =>
      let done := attempt libraries config (outside.provider row) (outside.meanwhile row db) row
      if done.aborted then done
      else
        let later := runRows libraries config outside done.db rest
        { later with events := done.events ++ later.events }

def runOnce (libraries : Libraries) (config : DispatcherConfig) (outside : Outside) (db : Db)
    (locked : Nat → Bool) : Except SqlError (List OutboxClaim × Run) := do
  let (leased, rows) ← claimOutbox db config.owner (some config.claimBatch) locked
  return (rows, runRows libraries config outside leased rows)

end PaymentWorkflow.Dispatcher
