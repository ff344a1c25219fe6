import PaymentWorkflow.InvokerCore
import PaymentWorkflow.SystemCore

/-!
`ActionEndpoint.Handle` from the bytes of a request on, with `SignatureVerifier` and the
transport part of `RequestState.Build`, and what the request's `api.invoke` leaves behind.
-/

namespace PaymentWorkflow

abbrev Bytes := List UInt8

def hexDigit (value : Nat) : Char :=
  if value < 10 then Char.ofNat ('0'.toNat + value) else Char.ofNat ('a'.toNat + (value - 10))

def lowerHex (bytes : Bytes) : String :=
  String.ofList (bytes.flatMap fun byte => [hexDigit (byte.toNat / 16), hexDigit (byte.toNat % 16)])

def isWhiteSpace (char : Char) : Bool :=
  let code := char.toNat
  (9 ≤ code && code ≤ 13) || code = 0x20 || code = 0x85 || code = 0xA0 || code = 0x1680 ||
    (0x2000 ≤ code && code ≤ 0x200A) || code = 0x2028 || code = 0x2029 || code = 0x202F ||
    code = 0x205F || code = 0x3000

def trim (content : String) : String :=
  String.ofList ((content.toList.dropWhile isWhiteSpace).reverse.dropWhile isWhiteSpace).reverse

inductive TokenVerdict
  | thrown | rejected
  | accepted (auth : AuthContext)

structure Platform where
  hmacSha256 : (secret body : Bytes) → Bytes
  sha256 : Bytes → Bytes
  decodeUtf8 : Bytes → String
  parseJson : String → Option Json
  castJsonb : String → Option Json
  validateToken : String → TokenVerdict

def providerSecret (configured : Option String) : Option Bytes :=
  match configured with
  | none => none
  | some secret => if secret = "" then none else some secret.toUTF8.toList

/-- `SignatureVerifier.TryVerify`: `none` where it is false, else the version it leaves. -/
def tryVerify (platform : Platform) (secret : Option Bytes) (body : Bytes) (header : String) :
    Option (Option Int) :=
  if header = "" then some none
  else
    let value := (trim header).toList
    if ¬ ['v', '1', '='].isPrefixOf value then none
    else
      let hex := value.drop 3
      if hex.length ≠ 64 ∨ ¬ hex.all isHexDigit then none
      else
        match secret with
        | none => none
        | some key =>
            if (lowerHex (platform.hmacSha256 key body)).toList = hex then some (some 1) else none

structure HttpRequest where
  module : String
  action : String
  versionHeader : Option String
  authorization : String
  signatureHeader : Option String
  idempotencyKey : Option String
  body : Bytes

def tryParseVersion : Option String → Option (Option Int)
  | none => some none
  | some raw =>
      match castInt raw with
      | none => none
      | some version => if 1 ≤ version ∧ version < 2 ^ 31 then some (some version) else none

def payloadText (platform : Platform) (body : Bytes) : String :=
  let payload := platform.decodeUtf8 body
  if payload.toList.all isWhiteSpace then "{}" else payload

def RequestState.context (state : RequestState) (signatureVerified : Bool)
    (signatureVersion : Option Int) (bodySha256 : String) : Context where
  principal := some state.principal
  requestId := some state.requestId
  correlationId := some (uuidText state.correlationId)
  scopes := state.scopes
  signatureVerified := some signatureVerified
  signatureVersion := signatureVersion
  bodySha256 := if bodySha256 = "" then none else some bodySha256

structure Admitted where
  state : RequestState
  entry : ActionManifest
  payload : String
  context : Context

namespace ActionEndpoint

variable (platform : Platform) (packages : Packages)

def handle (secret : Option Bytes) (catalog : Catalog) (reached : Bool) (correlationId : Nat)
    (http : HttpRequest) : Except Answer Admitted :=
  if ¬ isRouteName http.module ∨ ¬ isRouteName http.action then
    .error (.error "request.invalid" "invalid route" false none 400)
  else
    match tryParseVersion http.versionHeader with
    | none => .error (.error "request.invalid" "invalid version header" false none 400)
    | some explicitVersion =>
        match platform.validateToken http.authorization with
        | .thrown => .error .unhandled
        | .rejected => .error (.error "auth.invalid" "invalid token" false explicitVersion 401)
        | .accepted auth =>
            let header := http.signatureHeader.getD ""
            match tryVerify platform secret http.body header with
            | none =>
                .error (.error "signature.invalid" "invalid signature" false explicitVersion 401)
            | some signatureVersion =>
                let payload := payloadText platform http.body
                match platform.parseJson payload with
                | none => .error (.error "request.invalid" "invalid json" false none 400)
                | some body =>
                    if ¬ reached then
                      .error (.error "dependency.unavailable" "db unavailable" true
                        explicitVersion 503)
                    else
                      match checkRequest packages correlationId
                          { module := http.module, action := http.action, explicitVersion, auth
                            idempotencyKey := http.idempotencyKey.getD "", payload, body }
                          (catalog.getOrDefault http.module http.action explicitVersion) with
                      | .error answer => .error answer
                      | .ok (state, entry) =>
                          .ok {
                            state, entry, payload
                            context := state.context (header ≠ "") signatureVersion
                              (lowerHex (platform.sha256 http.body)) }

/-- The target function runs at most once for a request, and what it wrote stays only where
`InvokeAsync` accepts its envelope and the transaction commits. -/
def invoked (admitted : Admitted) (db : Db) (called committed : Bool) : Db :=
  match platform.castJsonb admitted.payload with
  | none => db
  | some payload =>
      if ¬ called then db
      else
        match PaymentWorkflow.invoke db admitted.state.module admitted.state.action
            admitted.state.explicitVersion admitted.context payload with
        | .ok (changed, .ok outcome result) =>
            if committed ∧ admitted.entry.outcomes.contains outcome ∧
                packages.isValid admitted.entry.responseSchema result then changed
            else db
        | .ok (_, .error _ _) => db
        | .error _ => db

def served (secret : Option Bytes) (catalog : Catalog) (reached : Bool) (correlationId : Nat)
    (db : Db) (http : HttpRequest) (called committed : Bool) : Db :=
  match handle platform packages secret catalog reached correlationId http with
  | .error _ => db
  | .ok admitted => invoked platform packages admitted db called committed

end ActionEndpoint

end PaymentWorkflow
