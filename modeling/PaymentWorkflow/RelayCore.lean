import PaymentWorkflow.DispatcherCore
import PaymentWorkflow.EndpointCore

/-!
The way of a callback: `adapter.py` takes it, signs the receipt it makes of it and posts that to
the gateway, which passes it on to the API.
-/

namespace PaymentWorkflow

open Python (Text Value literal)

/-! `receipt.sign` and `AdapterHandler.do_POST`. -/

structure AdapterConfig where
  capability : String
  receiptApiUrl : String
  token : String
  hmacSecret : String

structure AdapterLibraries where
  int : String → Option Int
  loads : Text → Dispatcher.Loaded
  hmacSha256 : (secret body : Bytes) → Bytes

structure CallbackPost where
  path : String
  contentLength : Option String
  stream : ByteArray

structure ReceiptPost where
  url : String
  body : ByteArray
  headers : List (String × Text)

inductive AdapterAnswer
  | empty (status : Nat)
  | unavailable
  | passed (status : Nat) (body : ByteArray)
  | raised

def maxBodyBytes : Nat := 64 * 1024

def sign (hmacSha256 : (secret body : Bytes) → Bytes) (secret : String) (body : ByteArray) : String :=
  "v1=" ++ lowerHex (hmacSha256 secret.toUTF8.toList body.toList)

namespace AdapterHandler

variable (config : AdapterConfig) (libraries : AdapterLibraries)

def contentLength (post : CallbackPost) : Option Int :=
  match post.contentLength with
  | none => some 0
  | some header => if header = "" then some 0 else libraries.int header

def isDict : Value → Bool
  | .dict _ => true
  | _ => false

def readLegacy (post : CallbackPost) : Except AdapterAnswer Value :=
  if String.ofList (post.path.toList.takeWhile (· ≠ '?')) ≠
      "/callbacks/provider-v02/" ++ config.capability then .error (.empty 404)
  else
    match contentLength libraries post with
    | none => .error (.empty 400)
    | some length =>
        if length ≤ 0 ∨ length > maxBodyBytes then .error (.empty 400)
        else
          match Python.decode (post.stream.extract 0 length.toNat) with
          | none => .error (.empty 400)
          | some text =>
              match libraries.loads text with
              | .malformed => .error (.empty 400)
              | .raised => .error .raised
              | .value legacy => if isDict legacy then .ok legacy else .error (.empty 400)

def headers (receipt : Value) (signature : String) : List (String × Text) := [
  ("Authorization", literal ("Bearer " ++ config.token)),
  ("Content-Type", literal "application/json"),
  ("Idempotency-Key", match Value.field receipt "messageId" with
    | .text messageId => messageId
    | _ => []),
  ("X-Action-Version", literal "1"),
  ("X-Provider-Signature", literal signature)]

def prepare (legacy : Value) : Except AdapterAnswer ReceiptPost :=
  match normalizeReceipt legacy with
  | .error _ => .error (.empty 400)
  | .ok receipt =>
      match canonicalBytes receipt with
      | none => .error .raised
      | some body => .ok {
          url := config.receiptApiUrl, body
          headers := headers config receipt (sign libraries.hmacSha256 config.hmacSecret body) }

def doPost (post : CallbackPost) (answered : ReceiptPost → Dispatcher.Posted) : AdapterAnswer :=
  match readLegacy config libraries post >>= prepare config libraries with
  | .error answer => answer
  | .ok sent =>
      match answered sent with
      | .answer (some status) body => .passed status body
      -- `send_response(None)` is a TypeError
      | .answer none _ => .raised
      | .httpError => .unavailable
      | .raised => .raised

end AdapterHandler

/-! The gateway. -/

structure GatewayRequest where
  method : String
  path : String
  query : String
  headers : List (String × List String)
  contentType : Option String
  contentLength : Option Nat
  body : Bytes

structure ForwardedRequest where
  method : String
  target : String
  headers : List (String × List String)
  content : Option (Bytes × Option String)

inductive Routed
  | live
  | forward (target : String)
  | notFound
deriving DecidableEq

namespace Gateway

def ignoringCase (left right : String) : Bool :=
  left.toList.map Char.toUpper = right.toList.map Char.toUpper

def header? (headers : List (String × List String)) (name : String) : Option (List String) :=
  (headers.find? fun header => ignoringCase header.1 name).map Prod.snd

def segments (path : String) : List String :=
  ((path.toList.splitOn '/').filter (· ≠ [])).map String.ofList

def startsWithSegments (path fixed : String) : Bool :=
  ignoringCase (String.ofList (path.toList.take fixed.length)) fixed &&
    (path.toList.drop fixed.length).head?.all (· = '/')

def route (request : GatewayRequest) : Routed :=
  let get := ignoringCase request.method "GET"
  if get ∧ ignoringCase request.path "/health/live" then .live
  else if get ∧ startsWithSegments request.path "/openapi" then
    .forward (request.path ++ request.query)
  else if get ∧ ignoringCase request.path "/health/ready" then .forward "/health/ready"
  else if ignoringCase request.method "POST" ∧ (segments request.path).length = 3 ∧
      (segments request.path).head? = some "api" then .forward (request.path ++ request.query)
  else .notFound

def forwardedRequestHeaders : List String :=
  ["Authorization", "Idempotency-Key", "X-Action-Version", "X-Provider-Signature"]

def buildRequest (request : GatewayRequest) (target : String) : ForwardedRequest where
  method := request.method
  target
  headers := forwardedRequestHeaders.filterMap fun name =>
    (header? request.headers name).map fun values => (name, values)
  content :=
    if request.contentLength.any (0 < ·) ∨ request.contentType ≠ none then
      some (request.body, request.contentType)
    else none

def forwarded (request : GatewayRequest) : Option ForwardedRequest :=
  match route request with
  | .forward target => some (buildRequest request target)
  | _ => none

end Gateway

def joined (values : List String) : String := ", ".intercalate values

def HttpRequest.ofForwarded (request : ForwardedRequest) : Option HttpRequest :=
  match Gateway.segments (String.ofList (request.target.toList.takeWhile (· ≠ '?'))) with
  | [api, module, action] =>
      if Gateway.ignoringCase request.method "POST" ∧ Gateway.ignoringCase api "api" then
        some {
          module, action
          versionHeader := (Gateway.header? request.headers "X-Action-Version").map joined
          authorization := joined ((Gateway.header? request.headers "Authorization").getD [])
          signatureHeader := (Gateway.header? request.headers "X-Provider-Signature").map joined
          idempotencyKey := (Gateway.header? request.headers "Idempotency-Key").map joined
          body := (request.content.map Prod.fst).getD [] }
      else none
  | _ => none

/-! The whole way. -/

def urlTarget (url : String) : List Char :=
  ((url.toList.dropWhile (· ≠ ':')).drop 3).dropWhile (· ≠ '/')

/-- ASCII, nothing of it invisible, and no space at either end. -/
def isHeaderText (value : Text) : Bool :=
  value.all (fun point => 0x20 ≤ point.number && point.number < 0x7F) &&
    value.head? ≠ some (Python.CodePoint.ofChar ' ') &&
      value.getLast? ≠ some (Python.CodePoint.ofChar ' ')

/-- A post of `http_client.py` as the gateway's server takes it. What becomes of a header that is
not plain text is left open. -/
structure Arrives (sent : ReceiptPost) (arrived : GatewayRequest) : Prop where
  method : arrived.method = "POST"
  path : arrived.path = String.ofList ((urlTarget sent.url).takeWhile (· ≠ '?'))
  query : arrived.query = String.ofList ((urlTarget sent.url).dropWhile (· ≠ '?'))
  headers : ∀ name value, (name, value) ∈ sent.headers → isHeaderText value = true →
    Gateway.header? arrived.headers name = some [String.ofList (value.map Python.CodePoint.toChar)]
  contentType : ∀ value, Gateway.header? arrived.headers "Content-Type" = some [value] →
    arrived.contentType = some value
  body : arrived.body = sent.body.toList

structure Relay where
  config : AdapterConfig
  libraries : AdapterLibraries
  platform : Platform
  packages : Packages
  secret : Option String
  catalog : Catalog

structure Passage where
  correlationId : Nat
  reached : Bool
  called : Bool
  committed : Bool

inductive RelayTurn
  | call (call : Call)
  | request (arrived : GatewayRequest) (passage : Passage)

namespace Relay

variable (relay : Relay)

def served (db : Db) (arrived : GatewayRequest) (passage : Passage) : Db :=
  match (Gateway.forwarded arrived).bind HttpRequest.ofForwarded with
  | none => db
  | some http => ActionEndpoint.served relay.platform relay.packages (providerSecret relay.secret)
      relay.catalog passage.reached passage.correlationId db http passage.called passage.committed

def turn (system : System) : RelayTurn → System
  | .call call => step system call
  | .request arrived passage => { system with db := relay.served system.db arrived passage }

end Relay

end PaymentWorkflow
