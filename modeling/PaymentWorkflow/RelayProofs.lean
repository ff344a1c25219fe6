import PaymentWorkflow.CallbackProofs
import PaymentWorkflow.EndpointProofs
import PaymentWorkflow.RelayCore

/-! What the adapter signs the API verifies, and a callback it has sent reaches the inbox. -/

namespace PaymentWorkflow

open Python (CodePoint Text Value literal)

/-! The signature. -/

theorem hexDigit_hex : ∀ digit < 16, isHexDigit (hexDigit digit) = true := by decide

theorem lowerHex_chars (bytes : Bytes) : (lowerHex bytes).toList = bytes.flatMap fun byte =>
    [hexDigit (byte.toNat / 16), hexDigit (byte.toNat % 16)] := by
  rw [lowerHex, String.toList_ofList]

theorem lowerHex_length (bytes : Bytes) : (lowerHex bytes).toList.length = 2 * bytes.length := by
  rw [lowerHex_chars]
  induction bytes with
  | nil => rfl
  | cons byte rest ih =>
      simp only [List.flatMap_cons, List.length_append, List.length_cons, List.length_nil, ih]
      omega

theorem lowerHex_hex (bytes : Bytes) : (lowerHex bytes).toList.all isHexDigit = true := by
  rw [lowerHex_chars, List.all_eq_true]
  intro char member
  obtain ⟨byte, _, inside⟩ := List.mem_flatMap.mp member
  have bound : byte.toNat < 256 := byte.toNat_lt
  simp only [List.mem_cons, List.not_mem_nil, or_false] at inside
  rcases inside with rfl | rfl
  · exact hexDigit_hex _ (by omega)
  · exact hexDigit_hex _ (by omega)

theorem isSha256Hex_lowerHex {bytes : Bytes} (length : bytes.length = 32) :
    isSha256Hex (lowerHex bytes) = true := by
  simp [isSha256Hex, lowerHex_length, lowerHex_hex, length]

theorem isHexDigit_range {char : Char} (hex : isHexDigit char = true) :
    0x30 ≤ char.toNat ∧ char.toNat ≤ 0x66 := by
  simp only [isHexDigit, Char.isDigit, Bool.or_eq_true, Bool.and_eq_true, decide_eq_true_eq] at hex
  rcases hex with ⟨low, high⟩ | ⟨low, high⟩
  · have first : '0'.toNat ≤ char.toNat := low
    have last : char.toNat ≤ '9'.toNat := high
    simp at first last
    omega
  · simp at low high
    omega

theorem isHexDigit_visible {char : Char} (hex : isHexDigit char = true) :
    isWhiteSpace char = false := by
  have range := isHexDigit_range hex
  simp only [isWhiteSpace, Bool.or_eq_false_iff, Bool.and_eq_false_iff, decide_eq_false_iff_not]
  omega

theorem trim_visible {content : String} {first last : Char} {middle : List Char}
    (chars : content.toList = first :: (middle ++ [last])) (start : isWhiteSpace first = false)
    (finish : isWhiteSpace last = false) : trim content = content := by
  rw [trim, chars, List.dropWhile_cons_of_neg (by simp [start]), ← List.cons_append,
    List.reverse_append, List.reverse_singleton, List.singleton_append,
    List.dropWhile_cons_of_neg (by simp [finish]), List.reverse_cons, List.reverse_reverse,
    List.cons_append, ← chars, String.ofList_toList]

section Signature

variable {hmacSha256 : (secret body : Bytes) → Bytes}

theorem sign_chars (secret : String) (body : ByteArray) :
    (sign hmacSha256 secret body).toList = 'v' :: '1' :: '=' ::
      (lowerHex (hmacSha256 secret.toUTF8.toList body.toList)).toList := by
  rw [sign, String.toList_append]
  rfl

theorem trim_sign (secret : String) (body : ByteArray) :
    trim (sign hmacSha256 secret body) = sign hmacSha256 secret body := by
  have chars := @sign_chars hmacSha256 secret body
  have hex := List.all_eq_true.mp (lowerHex_hex (hmacSha256 secret.toUTF8.toList body.toList))
  generalize (lowerHex (hmacSha256 secret.toUTF8.toList body.toList)).toList = digits at chars hex
  have filled : '1' :: '=' :: digits ≠ [] := List.cons_ne_nil _ _
  refine @trim_visible _ 'v' (('1' :: '=' :: digits).getLast filled)
    ('1' :: '=' :: digits).dropLast ?_ (by decide) ?_
  · rw [List.dropLast_append_getLast]
    exact chars
  · cases digits with
    | nil => rfl
    | cons digit rest =>
        rw [List.getLast_cons_cons, List.getLast_cons_cons]
        exact isHexDigit_visible (hex _ (List.getLast_mem _))

/-- Whatever is signed under a secret verifies under it. -/
theorem tryVerify_sign {platform : Platform} {secret : String} (named : secret ≠ "")
    (body : ByteArray)
    (length : (platform.hmacSha256 secret.toUTF8.toList body.toList).length = 32) :
    tryVerify platform (providerSecret (some secret)) body.toList
      (sign platform.hmacSha256 secret body) = some (some 1) := by
  have chars := @sign_chars platform.hmacSha256 secret body
  have present : sign platform.hmacSha256 secret body ≠ "" := by
    intro same
    rw [same] at chars
    cases chars
  have started : ∀ rest, ['v', '1', '='].isPrefixOf ('v' :: '1' :: '=' :: rest) = true := by
    intro rest
    simp [List.isPrefixOf]
  have hex := lowerHex_hex (platform.hmacSha256 secret.toUTF8.toList body.toList)
  have digits := lowerHex_length (platform.hmacSha256 secret.toUTF8.toList body.toList)
  rw [length] at digits
  rw [tryVerify, if_neg present, trim_sign, chars]
  simp only [started, not_true_eq_false, if_false, List.drop_succ_cons, List.drop_zero, digits, hex,
    ne_eq, or_self, providerSecret, named, if_true]

end Signature

/-! Header values. -/

theorem ofList_literal (content : String) :
    String.ofList ((literal content).map CodePoint.toChar) = content := by
  have chars : (literal content).map CodePoint.toChar = content.toList := by
    rw [literal, List.map_map]
    refine (List.map_congr_left fun char _ => ?_).trans (List.map_id content.toList)
    exact CodePoint.toChar_ofChar char
  rw [chars, String.ofList_toList]

theorem isHeaderText_visible {value : Text}
    (visible : ∀ point ∈ value, 0x20 < point.number ∧ point.number < 0x7F) :
    isHeaderText value = true := by
  have apart : ∀ point ∈ value, point ≠ CodePoint.ofChar ' ' := by
    rintro point member rfl
    exact absurd (visible _ member).1 (by decide)
  simp only [isHeaderText, Bool.and_eq_true, List.all_eq_true, decide_eq_true_eq]
  refine ⟨⟨fun point member => ⟨Nat.le_of_lt (visible point member).1, (visible point member).2⟩,
    fun start => ?_⟩, fun finish => ?_⟩
  · exact apart _ (List.mem_of_mem_head? start) rfl
  · exact apart _ (List.mem_of_mem_getLast? finish) rfl

theorem isHeaderText_sign (hmacSha256 : (secret body : Bytes) → Bytes) (secret : String)
    (body : ByteArray) : isHeaderText (literal (sign hmacSha256 secret body)) = true := by
  have hex := List.all_eq_true.mp (lowerHex_hex (hmacSha256 secret.toUTF8.toList body.toList))
  refine isHeaderText_visible fun point member => ?_
  rw [literal, sign_chars] at member
  obtain ⟨char, inside, rfl⟩ := List.mem_map.mp member
  change 0x20 < char.toNat ∧ char.toNat < 0x7F
  rcases List.mem_cons.mp inside with rfl | inside
  · decide
  rcases List.mem_cons.mp inside with rfl | inside
  · decide
  rcases List.mem_cons.mp inside with rfl | inside
  · decide
  have range := isHexDigit_range (hex char inside)
  omega

/-! The gateway. -/

namespace Gateway

theorem ignoringCase_self (name : String) : ignoringCase name name = true := by
  simp [ignoringCase]

theorem ignoringCase_symm {first second : String} (same : ignoringCase first second = true) :
    ignoringCase second first = true := by
  simp only [ignoringCase, decide_eq_true_eq] at same ⊢
  exact same.symm

theorem header?_distinct {header : String × List String} :
    ∀ {headers : List (String × List String)}, (headers.map Prod.fst).Pairwise
      (fun left right => ignoringCase left right = false) → header ∈ headers →
        header? headers header.1 = some header.2
  | [], _, listed => absurd listed List.not_mem_nil
  | first :: rest, distinct, listed => by
      obtain ⟨others, distinctRest⟩ := List.pairwise_cons.mp distinct
      rcases List.mem_cons.mp listed with rfl | later
      · rw [header?, List.find?_cons_of_pos]
        · rfl
        · exact ignoringCase_self header.1
      · have apart : ignoringCase first.1 header.1 = false :=
          others header.1 (List.mem_map_of_mem later)
        rw [header?, List.find?_cons_of_neg (by rw [apart]; exact Bool.false_ne_true)]
        exact header?_distinct distinctRest later

theorem header?_passed (headers : List (String × List String)) {name : String} :
    ∀ {names : List String}, names.Pairwise (fun left right => ignoringCase left right = false) →
      name ∈ names → header? (names.filterMap fun name =>
        (header? headers name).map fun values => (name, values)) name = header? headers name
  | [], _, listed => absurd listed List.not_mem_nil
  | first :: rest, distinct, listed => by
      obtain ⟨others, distinctRest⟩ := List.pairwise_cons.mp distinct
      rcases List.mem_cons.mp listed with rfl | listed
      · cases found : header? headers name with
        | none =>
            rw [List.filterMap_cons_none (by rw [found]; rfl), header?, Option.map_eq_none_iff,
              List.find?_eq_none]
            intro header inside matched
            obtain ⟨other, member, shown⟩ := List.mem_filterMap.mp inside
            obtain ⟨values, _, rfl⟩ := Option.map_eq_some_iff.mp shown
            have apart := others other member
            rw [ignoringCase_symm matched] at apart
            cases apart
        | some values =>
            rw [List.filterMap_cons_some (by rw [found]; rfl), header?, List.find?_cons_of_pos]
            · rfl
            · exact ignoringCase_self name
      · have apart : ignoringCase first name = false := others name listed
        have ih := header?_passed headers distinctRest listed
        cases found : header? headers first with
        | none => rw [List.filterMap_cons_none (by rw [found]; rfl), ih]
        | some values =>
            rw [List.filterMap_cons_some (by rw [found]; rfl), header?, List.find?_cons_of_neg]
            · exact ih
            · rw [apart]
              exact Bool.false_ne_true

theorem forwardedRequestHeaders_distinct : forwardedRequestHeaders.Pairwise
    (fun left right => ignoringCase left right = false) := by
  decide

theorem header?_buildRequest (request : GatewayRequest) (target : String) {name : String}
    (listed : name ∈ forwardedRequestHeaders) :
    header? (buildRequest request target).headers name = header? request.headers name :=
  header?_passed request.headers forwardedRequestHeaders_distinct listed

end Gateway

structure Passed (arrived : GatewayRequest) (http : HttpRequest) : Prop where
  module : http.module = "receipt"
  action : http.action = "accept"
  versionHeader : http.versionHeader =
    (Gateway.header? arrived.headers "X-Action-Version").map joined
  authorization : http.authorization =
    joined ((Gateway.header? arrived.headers "Authorization").getD [])
  signatureHeader : http.signatureHeader =
    (Gateway.header? arrived.headers "X-Provider-Signature").map joined
  idempotencyKey : http.idempotencyKey =
    (Gateway.header? arrived.headers "Idempotency-Key").map joined
  body : http.body = arrived.body

theorem gateway_passes {arrived : GatewayRequest} (method : arrived.method = "POST")
    (path : arrived.path = "/api/receipt/accept") (query : arrived.query = "")
    (typed : arrived.contentType ≠ none) :
    ∃ http, (Gateway.forwarded arrived).bind HttpRequest.ofForwarded = some http ∧
      Passed arrived http := by
  have routed : Gateway.route arrived = .forward "/api/receipt/accept" := by
    simp only [Gateway.route, method, path, query]
    decide
  have segments : Gateway.segments (String.ofList
      ("/api/receipt/accept".toList.takeWhile (· ≠ '?'))) = ["api", "receipt", "accept"] := by
    decide
  rw [Gateway.forwarded, routed, Option.bind_some, HttpRequest.ofForwarded]
  have target : (Gateway.buildRequest arrived "/api/receipt/accept").target =
    "/api/receipt/accept" := rfl
  have posted : Gateway.ignoringCase (Gateway.buildRequest arrived "/api/receipt/accept").method
      "POST" = true := by
    change Gateway.ignoringCase arrived.method "POST" = true
    rw [method]
    exact Gateway.ignoringCase_self _
  have api : Gateway.ignoringCase "api" "api" = true := Gateway.ignoringCase_self _
  have content : (Gateway.buildRequest arrived "/api/receipt/accept").content =
      some (arrived.body, arrived.contentType) := by
    rw [Gateway.buildRequest, if_pos (.inr typed)]
  rw [target, segments]
  simp only [posted, api, and_self, if_true]
  have kept : ∀ name ∈ Gateway.forwardedRequestHeaders, Gateway.header?
      (Gateway.buildRequest arrived "/api/receipt/accept").headers name =
        Gateway.header? arrived.headers name :=
    fun _ listed => Gateway.header?_buildRequest arrived _ listed
  refine ⟨_, rfl, rfl, rfl, ?_, ?_, ?_, ?_, ?_⟩
  · exact congrArg (Option.map joined) (kept "X-Action-Version" (by decide))
  · exact congrArg (fun values => joined (values.getD [])) (kept "Authorization" (by decide))
  · exact congrArg (Option.map joined) (kept "X-Provider-Signature" (by decide))
  · exact congrArg (Option.map joined) (kept "Idempotency-Key" (by decide))
  · rw [content]
    rfl

/-! The receipt on the wire. -/

structure WireReceipt (callback : Callback) (content : String) (payload : Json) : Prop where
  valid : callback.Valid
  bytes : canonicalBytes callback.receipt = some content.toUTF8
  loads : Python.loads (literal content) = some callback.receipt
  shown : content.toList.all isWhiteSpace = false
  schema : meetsReceiptSchema callback.receipt = true
  stored : storedReceipt? callback.receipt = some payload
  dated : (payload.text? "occurredAt").any isOccurredAt = true

theorem dumps_opens (members : List (Text × Value)) : ∃ rest,
    Python.dumps true (.dict members) = CodePoint.ofChar '\x7b' :: rest :=
  ⟨_, rfl⟩

theorem written_of_acceptable {legacy : Value} (acceptable : Acceptable legacy) :
    ∃ callback content payload, Sent legacy callback ∧ WireReceipt callback content payload := by
  obtain ⟨receipt, bytes, payload, normalized, encoded, read, schema, stored, dated⟩ := acceptable
  obtain ⟨_, accepted, _⟩ := Runs.bind_eq_ok.mp normalized
  obtain ⟨callback, valid, paymentId, operationId, occurredAt, result⟩ := validateLegacy_ok accepted
  have same := normalizeReceipt_ok accepted paymentId operationId occurredAt result
  rw [same] at normalized
  cases normalized
  have scalar : (Python.dumps true callback.receipt).any CodePoint.isSurrogate = false := by
    cases surrogate : (Python.dumps true callback.receipt).any CodePoint.isSurrogate with
    | false => rfl
    | true =>
        rw [canonicalBytes, Python.encode, if_pos surrogate] at encoded
        cases encoded
  obtain ⟨rest, opens⟩ := dumps_opens callback.members
  have text : literal (String.ofList ((Python.dumps true callback.receipt).map CodePoint.toChar)) =
      Python.dumps true callback.receipt := by
    rw [literal, String.toList_ofList, Python.map_ofChar_toChar scalar]
  refine ⟨callback, String.ofList ((Python.dumps true callback.receipt).map CodePoint.toChar),
    payload, ⟨same, paymentId, operationId, result, occurredAt⟩, ⟨valid, ?_, ?_, ?_, schema, stored,
      dated⟩⟩
  · rw [canonicalBytes, Python.encode, if_neg (by rw [scalar]; exact Bool.false_ne_true)]
    rfl
  · rw [Python.decode_encode encoded, Option.bind_some] at read
    rw [text]
    exact read
  · rw [String.toList_ofList, Callback.receipt, opens, List.map_cons, CodePoint.toChar_ofChar,
      List.all_cons]
    rfl

section Wire

variable {callback : Callback} {content : String} {payload : Json}

theorem WireReceipt.fields (written : WireReceipt callback content payload) :
    ∃ externalRequestId messageId occurredAt outcome,
      storedText? callback.operationId = some externalRequestId ∧
      storedText? callback.paymentId = some messageId ∧
      storedText? callback.result = some outcome ∧
      payload = .object [
        ("externalRequestId", .text externalRequestId), ("messageId", .text messageId),
        ("occurredAt", .text occurredAt), ("outcome", .text outcome),
        ("providerPaymentId", .text messageId), ("version", .number (.ofInt 1))] := by
  have stored := written.stored
  rw [Callback.storedReceipt?_eq] at stored
  obtain ⟨externalRequestId, first, stored⟩ := Option.bind_eq_some_iff.mp stored
  obtain ⟨messageId, second, stored⟩ := Option.bind_eq_some_iff.mp stored
  obtain ⟨occurredAt, _, stored⟩ := Option.bind_eq_some_iff.mp stored
  obtain ⟨outcome, third, stored⟩ := Option.map_eq_some_iff.mp stored
  exact ⟨externalRequestId, messageId, occurredAt, outcome, first, second, third, stored.symm⟩

theorem WireReceipt.outcome (written : WireReceipt callback content payload) :
    ∃ outcome, (payload.text? "outcome").bind ReceiptOutcome.ofText? = some outcome := by
  obtain ⟨_, _, _, outcome, _, _, judged, rfl⟩ := written.fields
  rcases written.valid.result with result | result
  · rw [result, Callback.storedText?_literal "COMPLETED" rfl] at judged
    cases judged
    exact ⟨.completed, rfl⟩
  · rw [result, Callback.storedText?_literal "REJECTED" rfl] at judged
    cases judged
    exact ⟨.rejected, rfl⟩

end Wire

/-! The parts of the relay belong together. -/

structure Platform.Reads (platform : Platform) : Prop where
  digests : ∀ secret body, (platform.hmacSha256 secret body).length = 32
  hashes : ∀ body, (platform.sha256 body).length = 32
  utf8 : ∀ content : String, platform.decodeUtf8 content.toUTF8.toList = content
  parses : ∀ callback content payload, WireReceipt callback content payload →
    ∃ body, platform.parseJson content = some body
  casts : ∀ callback content payload, WireReceipt callback content payload →
    ∃ read, platform.castJsonb content = some read ∧ ∀ key, read.text? key = payload.text? key

structure Registration where
  auth : AuthContext
  entry : ActionManifest
  row : ActionRow

/-- The adapter and the API share a secret, the adapter's token is one for `receipt.accept`, and
the catalog lists that action. -/
structure Relay.Deployed (relay : Relay) (registration : Registration) (config : Config) :
    Prop where
  url : relay.config.receiptApiUrl = "http://gateway:8080/api/receipt/accept"
  hmac : relay.libraries.hmacSha256 = relay.platform.hmacSha256
  shared : relay.secret = some relay.config.hmacSecret
  named : relay.config.hmacSecret ≠ ""
  bearer : isHeaderText (literal ("Bearer " ++ relay.config.token)) = true
  token : relay.platform.validateToken ("Bearer " ++ relay.config.token) =
    .accepted registration.auth
  listed : relay.catalog.getOrDefault "receipt" "accept" (some 1) = some registration.entry
  allowed : registration.entry.requiredPolicy.all registration.auth.scopes.contains = true
  schema : ∀ callback content payload body, WireReceipt callback content payload →
    relay.platform.parseJson content = some body →
      relay.packages.isValid registration.entry.requestSchema body = true
  outcome : registration.entry.outcomes.contains "RECEIVED" = true
  response : ∀ messageId externalRequestId : String, messageId ≠ "" → messageId.length ≤ 128 →
    externalRequestId ≠ "" → externalRequestId.length ≤ 128 →
      relay.packages.isValid registration.entry.responseSchema
        (receiptResult (some messageId) (some externalRequestId) "RECEIVED") = true
  target : catalogRow config "receipt" "accept" (some 1) = .ok registration.row
  runs : target? registration.row.targetSchema registration.row.targetFunction =
    some .receiptAcceptV1
  permitted : registration.row.requiredPolicy.all registration.auth.scopes.contains = true

section Admission

variable {relay : Relay} {registration : Registration} {config : Config} {callback : Callback}
  {content : String} {payload : Json} {legacy : Value}

def Relay.post (relay : Relay) (callback : Callback) (content : String) : ReceiptPost where
  url := relay.config.receiptApiUrl
  body := content.toUTF8
  headers := AdapterHandler.headers relay.config callback.receipt
    (sign relay.libraries.hmacSha256 relay.config.hmacSecret content.toUTF8)

/-- The provider gets the API's answer to the post made of its callback, and no other. -/
theorem AdapterHandler.doPost_passed {post : CallbackPost} {made : ReceiptPost}
    (prepared : (AdapterHandler.readLegacy relay.config relay.libraries post >>=
      AdapterHandler.prepare relay.config relay.libraries) = .ok made)
    (answered : ReceiptPost → Dispatcher.Posted) (status : Nat) (body : ByteArray) :
    AdapterHandler.doPost relay.config relay.libraries post answered = .passed status body ↔
      answered made = .answer (some status) body := by
  simp only [AdapterHandler.doPost, prepared]
  cases answered made with
  | answer replied content => cases replied <;> simp
  | httpError => simp
  | raised => simp

theorem prepare_written (sent : Sent legacy callback)
    (written : WireReceipt callback content payload) :
    AdapterHandler.prepare relay.config relay.libraries legacy =
      .ok (relay.post callback content) := by
  simp only [AdapterHandler.prepare, sent.normalized, written.bytes]
  rfl

theorem payloadText_written (reads : relay.platform.Reads)
    (written : WireReceipt callback content payload) :
    payloadText relay.platform content.toUTF8.toList = content := by
  rw [payloadText, reads.utf8, if_neg (by rw [written.shown]; exact Bool.false_ne_true)]

structure Admitted.Carries (admitted : Admitted) (registration : Registration) (content : String)
    (bodyHash : String) : Prop where
  module : admitted.state.module = "receipt"
  action : admitted.state.action = "accept"
  version : admitted.state.explicitVersion = some 1
  entry : admitted.entry = registration.entry
  payload : admitted.payload = content
  scopes : admitted.context.scopes = registration.auth.scopes
  quiet : admitted.context.recordDispatch = false
  verified : admitted.context.signatureVerified = some true
  signed : admitted.context.signatureVersion = some 1
  hashed : admitted.context.bodySha256 = some bodyHash

structure SignedHeaders (relay : Relay) (callback : Callback) (content : String)
    (http : HttpRequest) : Prop where
  versionHeader : http.versionHeader = some "1"
  authorization : http.authorization = "Bearer " ++ relay.config.token
  signatureHeader : http.signatureHeader =
    some (sign relay.platform.hmacSha256 relay.config.hmacSecret content.toUTF8)
  idempotencyKey : http.idempotencyKey =
    some (String.ofList (callback.paymentId.map CodePoint.toChar))
  body : http.body = content.toUTF8.toList

theorem post_arrives (deployed : relay.Deployed registration config)
    (plain : isHeaderText callback.paymentId = true) {arrived : GatewayRequest}
    (arrives : Arrives (relay.post callback content) arrived) :
    ∃ http, (Gateway.forwarded arrived).bind HttpRequest.ofForwarded = some http ∧
      http.module = "receipt" ∧ http.action = "accept" ∧
        SignedHeaders relay callback content http := by
  have url : (relay.post callback content).url = "http://gateway:8080/api/receipt/accept" :=
    deployed.url
  have taken : ∀ name value, (name, literal value) ∈ (relay.post callback content).headers →
      isHeaderText (literal value) = true → Gateway.header? arrived.headers name = some [value] := by
    intro name value member shown
    rw [arrives.headers name _ member shown, ofList_literal]
  have version := taken "X-Action-Version" "1" (by simp [Relay.post, AdapterHandler.headers])
    (by decide)
  have authorization := taken "Authorization" ("Bearer " ++ relay.config.token)
    (by simp [Relay.post, AdapterHandler.headers]) deployed.bearer
  have signature := taken "X-Provider-Signature"
    (sign relay.libraries.hmacSha256 relay.config.hmacSecret content.toUTF8)
    (by simp [Relay.post, AdapterHandler.headers]) (isHeaderText_sign _ _ _)
  have key : Gateway.header? arrived.headers "Idempotency-Key" = _ :=
    arrives.headers "Idempotency-Key" callback.paymentId
      (.tail _ (.tail _ (.head _))) plain
  have type := taken "Content-Type" "application/json"
    (by simp [Relay.post, AdapterHandler.headers]) (by decide)
  have typed : arrived.contentType ≠ none := by
    rw [arrives.contentType _ type]
    exact Option.some_ne_none _
  obtain ⟨http, made, passed⟩ := gateway_passes arrives.method
    (by rw [arrives.path, url]; decide) (by rw [arrives.query, url]; decide) typed
  have single : ∀ value, joined [value] = value := by
    intro value
    simp [joined]
  refine ⟨http, made, passed.module, passed.action, ?_, ?_, ?_, ?_, ?_⟩
  · rw [passed.versionHeader, version, Option.map_some, single]
  · rw [passed.authorization, authorization, Option.getD_some, single]
  · rw [passed.signatureHeader, signature, Option.map_some, single, deployed.hmac]
  · rw [passed.idempotencyKey, key, Option.map_some, single]
  · rw [passed.body, arrives.body]
    rfl

theorem handle_admits (reads : relay.platform.Reads)
    (deployed : relay.Deployed registration config) (written : WireReceipt callback content payload)
    {http : HttpRequest} (module : http.module = "receipt") (action : http.action = "accept")
    (signed : SignedHeaders relay callback content http) (correlationId : Nat) :
    ∃ admitted, ActionEndpoint.handle relay.platform relay.packages (providerSecret relay.secret)
      relay.catalog true correlationId http = .ok admitted ∧
      admitted.Carries registration content
        (lowerHex (relay.platform.sha256 content.toUTF8.toList)) := by
  obtain ⟨body, parsed⟩ := reads.parses callback content payload written
  have verified := @tryVerify_sign relay.platform _ deployed.named content.toUTF8
    (reads.digests _ _)
  have present : sign relay.platform.hmacSha256 relay.config.hmacSecret content.toUTF8 ≠ "" := by
    intro same
    have chars := @sign_chars relay.platform.hmacSha256 relay.config.hmacSecret content.toUTF8
    rw [same] at chars
    cases chars
  have short : ¬ (String.ofList (callback.paymentId.map CodePoint.toChar)).length > 128 := by
    rw [← String.length_toList, String.toList_ofList, List.length_map]
    exact Nat.not_lt.mpr written.valid.paymentId.2.1
  have named : String.ofList (callback.paymentId.map CodePoint.toChar) ≠ "" := by
    intro same
    have none := congrArg String.toList same
    rw [String.toList_ofList] at none
    exact written.valid.paymentId.1 (List.map_eq_nil_iff.mp none)
  have schema := deployed.schema callback content payload body written parsed
  have hash : lowerHex (relay.platform.sha256 content.toUTF8.toList) ≠ "" := by
    intro same
    have length := lowerHex_length (relay.platform.sha256 content.toUTF8.toList)
    rw [same, reads.hashes] at length
    cases length
  have route : isRouteName "receipt" = true ∧ isRouteName "accept" = true := by decide
  have version : tryParseVersion (some "1") = some (some 1) := by decide
  rw [ActionEndpoint.handle, module, action, signed.versionHeader, signed.authorization,
    signed.signatureHeader, signed.idempotencyKey, signed.body, payloadText_written reads written,
    deployed.shared]
  simp only [route.1, route.2, version, deployed.token, Option.getD_some, verified, parsed,
    deployed.listed, checkRequest, deployed.allowed, short, named, schema, not_true_eq_false,
    or_self, and_false, if_false]
  exact ⟨_, rfl, rfl, rfl, rfl, rfl, rfl, rfl, rfl, congrArg some (decide_eq_true present), rfl,
    if_neg hash⟩

end Admission

end PaymentWorkflow
