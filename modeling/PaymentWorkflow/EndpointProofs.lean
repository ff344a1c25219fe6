import PaymentWorkflow.EndpointCore
import PaymentWorkflow.DeliveryCalls
import PaymentWorkflow.SystemRuns

/-! Only a request that signs the bytes it carries leaves an inbox or a receipt row. -/

namespace PaymentWorkflow

def Db.mail (db : Db) : List InboxRow × List Receipt :=
  (db.delivery.inbox.map fun row => { row with state := .received },
    db.delivery.receipts.map fun row => { row with appliedAt := none })

def Db.Filed (db later : Db) (bodyHash : String) : Prop :=
  ∃ row receipt, later.mail = (db.mail.1 ++ [row], db.mail.2 ++ [receipt]) ∧
    row.bodyHash = bodyHash ∧ receipt.bodyHash = bodyHash

theorem Db.mail_of_delivery {db later : Db} (same : later.delivery = db.delivery) :
    later.mail = db.mail := by
  simp only [Db.mail, same]

theorem Db.mail_markApplied (db : Db) (messageId : String) :
    (db.markApplied messageId).mail = db.mail := by
  simp only [Db.mail, Db.markApplied_delivery_inbox, Db.markApplied_delivery_receipts]
  rw [Table.map_update, Table.map_update]
  all_goals exact fun _ => rfl

theorem EngineMove.mail {processId : Nat} {db later : Db} (move : EngineMove processId db later) :
    later.mail = db.mail := by
  cases move with
  | applied _ messageId => exact Db.mail_markApplied _ messageId
  | started | signalled | finished | decided =>
      exact Db.mail_of_delivery (Db.placeStep_delivery _ _ _)
  | _ => exact Db.mail_of_delivery rfl

theorem EngineMoves.mail {processId : Nat} {db later : Db} (moves : EngineMoves processId db later) :
    later.mail = db.mail := by
  induction moves with
  | refl => rfl
  | tail _ move ih => rw [move.mail, ih]

section Targets

variable {db later : Db} {payload : Json} {envelope : Envelope} {context : Context}

theorem Db.filed_insertReceipt (db : Db) (messageId externalRequestId : String) (processId : Nat)
    (outcome : ReceiptOutcome) (bodyHash : String) (body : Json) :
    db.Filed ((db.insertReceipt messageId externalRequestId processId outcome bodyHash
      body).confirmDelivery externalRequestId).tick bodyHash := by
  refine ⟨⟨messageId, externalRequestId, processId, "payment.receipt", bodyHash, body, .received,
    db.now⟩, ⟨messageId, externalRequestId, outcome, bodyHash, body, db.clock (db.ticks + 1),
    none⟩, ?_, rfl, rfl⟩
  simp only [Db.mail, Db.tick, Db.confirmDelivery, Db.updateExternal, Db.updateOutbox,
    Db.insertReceipt, List.map_append, List.map_cons, List.map_nil]

theorem storeReceipt_mail {external : ExternalRequest} {bodyHash : String}
    (returned : storeReceipt db external bodyHash payload = .ok (later, envelope)) :
    later.mail = db.mail ∨ db.Filed later bodyHash := by
  simp only [storeReceipt] at returned
  split at returned
  · cases returned
    exact .inl rfl
  split at returned
  · split at returned
    · cases returned
    split at returned
    · cases returned
    cases returned
    exact .inr (db.filed_insertReceipt _ _ _ _ _ _)
  · cases returned

theorem receiptAcceptV1_mail
    (returned : receiptAcceptV1 db context payload = .ok (later, envelope)) :
    later.mail = db.mail ∨ ∃ bodyHash, context.signatureVersion = some 1 ∧
      context.bodySha256 = some bodyHash ∧ db.Filed later bodyHash := by
  obtain ⟨version, _, body⟩ := Runs.bind_eq_ok.mp returned
  split at body
  · split at body <;>
    · cases body
      exact .inl rfl
  · simp only [receiptAcceptBody] at body
    split at body
    · cases body
      exact .inl rfl
    split at body
    · cases body
      exact .inl rfl
    rename_i versioned
    simp only [ne_eq, not_not] at versioned
    split at body
    · cases body
      exact .inl rfl
    split at body
    · cases body
      exact .inl rfl
    rename_i bodyHash hashed
    split at body
    · cases body
      exact .inl rfl
    split at body
    · cases body
      exact .inl rfl
    split at body
    · cases body
      exact .inl rfl
    rcases storeReceipt_mail body with same | filed
    · exact .inl same
    · exact .inr ⟨bodyHash, versioned, hashed, filed⟩

theorem prepareExternal_mail {operation : Operation} {externalRequestId : String}
    (returned : prepareExternal db context operation = .ok (later, externalRequestId)) :
    later.mail = db.mail := by
  simp only [prepareExternal] at returned
  split at returned
  · obtain ⟨correlationId, _, placed⟩ := Runs.bind_eq_ok.mp returned
    split at placed
    · cases placed
    · cases placed
      rfl
  · split at returned
    · cases returned
      rfl
    · obtain ⟨correlationId, _, placed⟩ := Runs.bind_eq_ok.mp returned
      cases placed
      rfl

theorem invoke_mail {module action : String} {version : Option Int} (steady : db.Steady)
    (returned : invoke db module action version context payload = .ok (later, envelope)) :
    later.mail = db.mail ∨ ∃ bodyHash, context.signatureVersion = some 1 ∧
      context.bodySha256 = some bodyHash ∧ db.Filed later bodyHash := by
  obtain ⟨between, same, delivers⟩ := invoke_delivers steady returned
  simp only [Db.Filed, Db.mail_of_delivery same]
  cases delivers with
  | kept same => exact .inl (Db.mail_of_delivery same)
  | engine moves => exact .inl moves.mail
  | prepared returned => exact .inl (prepareExternal_mail returned)
  | received returned => exact receiptAcceptV1_mail returned

end Targets

section Requests

variable (platform : Platform) (packages : Packages)

def HttpRequest.Signed (http : HttpRequest) (configured : Option String) : Prop :=
  ∃ secret value, configured = some secret ∧ secret ≠ "" ∧ http.signatureHeader = some value ∧
    trim value = "v1=" ++ lowerHex (platform.hmacSha256 secret.toUTF8.toList http.body)

theorem providerSecret_some {configured : Option String} {key : Bytes}
    (given : providerSecret configured = some key) :
    ∃ secret, configured = some secret ∧ secret ≠ "" ∧ key = secret.toUTF8.toList := by
  cases configured with
  | none => simp [providerSecret] at given
  | some secret =>
      simp only [providerSecret] at given
      split at given
      · cases given
      · rename_i named
        cases given
        exact ⟨secret, rfl, named, rfl⟩

/-- A header that passes is either empty, and then vouches for nothing, or right. -/
theorem tryVerify_some {secret : Option Bytes} {body : Bytes} {header : String}
    {version : Option Int} (passed : tryVerify platform secret body header = some version) :
    (header = "" ∧ version = none) ∨
      ∃ key, secret = some key ∧ header ≠ "" ∧
        trim header = "v1=" ++ lowerHex (platform.hmacSha256 key body) := by
  simp only [tryVerify] at passed
  split at passed
  · rename_i empty
    cases passed
    exact .inl ⟨empty, rfl⟩
  rename_i present
  split at passed
  · cases passed
  rename_i versioned
  split at passed
  · cases passed
  split at passed
  · cases passed
  rename_i key
  split at passed
  · rename_i equal
    refine .inr ⟨key, rfl, present, String.ext ?_⟩
    simp only [not_not] at versioned
    obtain ⟨rest, split⟩ := List.isPrefixOf_iff_prefix.mp versioned
    rw [← split] at equal
    simp only [List.cons_append, List.nil_append, List.drop_succ_cons, List.drop_zero] at equal
    rw [String.toList_append, equal, ← split]
    rfl
  · cases passed

theorem tryVerify_signed {configured : Option String} {http : HttpRequest} {version : Option Int}
    (passed : tryVerify platform (providerSecret configured) http.body
      (http.signatureHeader.getD "") = some version) :
    (http.signatureHeader.getD "" = "" ∧ version = none) ∨ http.Signed platform configured := by
  rcases tryVerify_some platform passed with empty | ⟨key, given, present, right⟩
  · exact .inl empty
  · obtain ⟨secret, known, named, rfl⟩ := providerSecret_some given
    cases header : http.signatureHeader with
    | none => simp [header] at present
    | some value => exact .inr ⟨secret, value, known, named, header, by simpa [header] using right⟩

theorem handle_ok {secret : Option Bytes} {catalog : Catalog} {available : Bool}
    {correlationId : Nat} {http : HttpRequest} {admitted : Admitted}
    (passed : ActionEndpoint.handle platform packages secret catalog available correlationId http =
      .ok admitted) :
    ∃ version, tryVerify platform secret http.body (http.signatureHeader.getD "") = some version ∧
      admitted.context.signatureVersion = version ∧
      ∀ bodyHash, admitted.context.bodySha256 = some bodyHash →
        bodyHash = lowerHex (platform.sha256 http.body) := by
  simp only [ActionEndpoint.handle] at passed
  split at passed
  · cases passed
  split at passed
  · cases passed
  split at passed
  · cases passed
  · cases passed
  split at passed
  · cases passed
  rename_i version verified
  split at passed
  · cases passed
  split at passed
  · cases passed
  split at passed
  · cases passed
  cases passed
  refine ⟨version, verified, rfl, fun bodyHash hashed => ?_⟩
  simp only [RequestState.context] at hashed
  split at hashed
  · cases hashed
  · exact (Option.some.inj hashed).symm

theorem invoked_mail {db : Db} (steady : db.Steady) (admitted : Admitted)
    (called committed : Bool) :
    (ActionEndpoint.invoked platform packages admitted db called committed).mail = db.mail ∨
      ∃ bodyHash, admitted.context.signatureVersion = some 1 ∧
        admitted.context.bodySha256 = some bodyHash ∧
        db.Filed (ActionEndpoint.invoked platform packages admitted db called committed)
          bodyHash := by
  simp only [ActionEndpoint.invoked]
  split
  · exact .inl rfl
  split
  · exact .inl rfl
  split
  · rename_i returned
    split
    · exact invoke_mail steady returned
    · exact .inl rfl
  · exact .inl rfl
  · exact .inl rfl

theorem served_mail {db : Db} (steady : db.Steady) (configured : Option String)
    (catalog : Catalog) (available : Bool) (correlationId : Nat) (http : HttpRequest)
    (called committed : Bool) :
    (ActionEndpoint.served platform packages (providerSecret configured) catalog available
        correlationId db http called committed).mail = db.mail ∨
      http.Signed platform configured ∧
        db.Filed (ActionEndpoint.served platform packages (providerSecret configured) catalog
          available correlationId db http called committed)
            (lowerHex (platform.sha256 http.body)) := by
  simp only [ActionEndpoint.served]
  split
  · exact .inl rfl
  rename_i admitted passed
  obtain ⟨version, verified, carried, hashed⟩ := handle_ok platform packages passed
  rcases invoked_mail platform packages steady admitted called committed with
    same | ⟨bodyHash, versioned, given, filed⟩
  · exact .inl same
  · rcases tryVerify_signed platform verified with ⟨_, unsigned⟩ | signed
    · rw [carried, unsigned] at versioned
      cases versioned
    · exact .inr ⟨signed, hashed bodyHash given ▸ filed⟩

theorem signature_guards_mail (config : Config) (clock : Nat → Time) (digest : String → String)
    (calls : List Call) (configured : Option String) (catalog : Catalog) (available : Bool)
    (correlationId : Nat) (http : HttpRequest) (called committed : Bool) :
    (∃ inbox receipts,
      (ActionEndpoint.served platform packages (providerSecret configured) catalog available
        correlationId (reached config clock digest calls).db http called committed).mail =
        ((reached config clock digest calls).db.mail.1 ++ inbox,
          (reached config clock digest calls).db.mail.2 ++ receipts) ∧
      (∀ row ∈ inbox, http.Signed platform configured ∧
        row.bodyHash = lowerHex (platform.sha256 http.body)) ∧
      (∀ row ∈ receipts, http.Signed platform configured ∧
        row.bodyHash = lowerHex (platform.sha256 http.body))) ∧
    (providerSecret configured = none →
      (ActionEndpoint.served platform packages (providerSecret configured) catalog available
        correlationId (reached config clock digest calls).db http called committed).mail =
        (reached config clock digest calls).db.mail) ∧
    ∀ value, http.signatureHeader = some value → value ≠ "" → ¬ http.Signed platform configured →
      ∃ answer, ActionEndpoint.handle platform packages (providerSecret configured) catalog
        available correlationId http = .error answer := by
  have filed := served_mail platform packages
    (@reached_steady config clock digest calls) configured catalog
    available correlationId http called committed
  refine ⟨?_, fun unconfigured => ?_, fun value header present unsigned => ?_⟩
  · rcases filed with same | ⟨signed, row, receipt, added, rowHash, receiptHash⟩
    · exact ⟨[], [], by simpa using same, by simp, by simp⟩
    · refine ⟨[row], [receipt], added, ?_, ?_⟩
      · simpa using ⟨signed, rowHash⟩
      · simpa using ⟨signed, receiptHash⟩
  · rcases filed with same | ⟨⟨secret, _, rfl, named, _⟩, _⟩
    · exact same
    · simp [providerSecret, named] at unconfigured
  · cases ran : ActionEndpoint.handle platform packages (providerSecret configured) catalog
        available correlationId http with
    | error answer => exact ⟨answer, rfl⟩
    | ok admitted =>
        obtain ⟨version, verified, _, _⟩ := handle_ok platform packages ran
        rcases tryVerify_signed platform verified with ⟨empty, _⟩ | signed
        · simp [header, present] at empty
        · exact absurd signed unsigned

end Requests

/-! An empty header is taken for none: the request goes on unsigned. -/

def Seed.platform : Platform where
  hmacSha256 _ _ := List.replicate 32 0
  sha256 _ := List.replicate 32 0
  decodeUtf8 _ := "{}"
  parseJson _ := some (.object [])
  castJsonb _ := some (.object [])
  validateToken _ := .accepted ⟨"provider", "course", []⟩

def Seed.receiptAccept : ActionManifest where
  module := "receipt"
  action := "accept"
  version := 1
  targetSchema := "payment"
  targetFunction := "receipt_accept_v1"
  requestSchema := .object []
  responseSchema := .object []
  outcomes := ["RECEIVED", "DUPLICATE"]
  requiredPolicy := []
  enabled := true
  isDefault := true
  contractVersion := "course-1"
  httpMethod := "POST"
  idempotencyMode := .none
  idempotencyScope := .none
  timeoutMs := 5000

def Seed.emptySignature : HttpRequest where
  module := "receipt"
  action := "accept"
  versionHeader := none
  authorization := "Bearer token"
  signatureHeader := some ""
  idempotencyKey := none
  body := []

theorem Seed.emptySignature_handled :
    (ActionEndpoint.handle Seed.platform ⟨fun _ _ _ => .evaluated true, id⟩ none
      [Seed.receiptAccept] true 1 Seed.emptySignature).toOption.isSome = true := by decide +kernel

theorem empty_signature_admitted :
    ¬ ∀ (platform : Platform) (packages : Packages) (configured : Option String)
      (catalog : Catalog) (http : HttpRequest) (correlationId : Nat),
      http.module = "receipt" → http.action = "accept" → http.signatureHeader.isSome →
      ¬ http.Signed platform configured →
      ∃ answer, ActionEndpoint.handle platform packages (providerSecret configured) catalog true
        correlationId http = .error answer := by
  intro always
  obtain ⟨answer, refused⟩ := always Seed.platform
    ⟨fun _ _ _ => .evaluated true, id⟩ none [Seed.receiptAccept] Seed.emptySignature 1 rfl rfl rfl
    (fun ⟨_, _, missing, _⟩ => nomatch missing)
  have handled := Seed.emptySignature_handled
  simp only [providerSecret] at refused
  rw [refused] at handled
  cases handled

end PaymentWorkflow
