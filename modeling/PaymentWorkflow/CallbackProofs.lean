import PaymentWorkflow.AdapterProofs
import PaymentWorkflow.InboxProofs

/-! Two callbacks of the provider: what tells the adapter's bytes, and the inbox, apart. -/

namespace PaymentWorkflow

open Python (Text Value literal)

def adapterBytes (legacy : Value) : Option ByteArray :=
  (normalizeReceipt legacy).toOption.bind canonicalBytes

def receivedPayload (legacy : Value) : Option Json :=
  (normalizeReceipt legacy).toOption.bind storedReceipt?

def SameFields (left right : Value) : Prop :=
  ∀ field ∈ ["providerPaymentId", "operationId", "result", "occurredAt"],
    Value.field left field = Value.field right field

structure Sent (legacy : Value) (callback : Callback) : Prop where
  normalized : normalizeReceipt legacy = .ok callback.receipt
  paymentId : Value.field legacy "providerPaymentId" = .text callback.paymentId
  operationId : Value.field legacy "operationId" = .text callback.operationId
  result : Value.field legacy "result" = .text callback.result
  occurredAt : Value.field legacy "occurredAt" = .text callback.occurredAt

theorem sent_of_accepted {legacy : Value} (accepted : validateLegacy legacy = .ok ()) :
    ∃ callback, Sent legacy callback := by
  obtain ⟨callback, _, paymentId, operationId, occurredAt, result⟩ := validateLegacy_ok accepted
  exact ⟨callback, normalizeReceipt_ok accepted paymentId operationId occurredAt result, paymentId,
    operationId, result, occurredAt⟩

section Pair

variable {left right : Value} {first second : Callback}

theorem sameFields_iff (leftSent : Sent left first) (rightSent : Sent right second) :
    SameFields left right ↔ first = second := by
  constructor
  · intro same
    have payment := same "providerPaymentId" (by simp)
    have operation := same "operationId" (by simp)
    have result := same "result" (by simp)
    have occurred := same "occurredAt" (by simp)
    rw [leftSent.paymentId, rightSent.paymentId] at payment
    rw [leftSent.operationId, rightSent.operationId] at operation
    rw [leftSent.result, rightSent.result] at result
    rw [leftSent.occurredAt, rightSent.occurredAt] at occurred
    cases first
    cases second
    cases payment
    cases operation
    cases result
    cases occurred
    rfl
  · rintro rfl field listed
    simp only [List.mem_cons, List.not_mem_nil, or_false] at listed
    rcases listed with rfl | rfl | rfl | rfl
    · rw [leftSent.paymentId, rightSent.paymentId]
    · rw [leftSent.operationId, rightSent.operationId]
    · rw [leftSent.result, rightSent.result]
    · rw [leftSent.occurredAt, rightSent.occurredAt]

theorem adapterBytes_eq {legacy : Value} {callback : Callback} (sent : Sent legacy callback) :
    adapterBytes legacy = canonicalBytes callback.receipt := by
  rw [adapterBytes, sent.normalized]
  rfl

theorem receivedPayload_eq {legacy : Value} {callback : Callback} (sent : Sent legacy callback) :
    receivedPayload legacy = storedReceipt? callback.receipt := by
  rw [receivedPayload, sent.normalized]
  rfl

theorem receipt_injective (same : first.receipt = second.receipt) : first = second := by
  cases first
  cases second
  simp only [Callback.receipt, Callback.members, Value.dict.injEq, List.cons.injEq, Prod.mk.injEq,
    Value.text.injEq, true_and, and_true] at same
  obtain ⟨rfl, rfl, rfl, rfl, -⟩ := same
  rfl

/-- The bytes decode to the receipt they were made of, so no two receipts share them. -/
theorem canonicalBytes_injective {bytes : ByteArray}
    (leftBytes : canonicalBytes first.receipt = some bytes)
    (rightBytes : canonicalBytes second.receipt = some bytes) : first = second := by
  have leftRead := Callback.loads_canonicalBytes leftBytes
  rw [Callback.loads_canonicalBytes rightBytes] at leftRead
  exact (receipt_injective (Option.some.inj leftRead)).symm

theorem messageId_of_stored {callback : Callback} {payload : Json}
    (stored : storedReceipt? callback.receipt = some payload) :
    payload.text? "messageId" = storedText? callback.paymentId := by
  rw [Callback.storedReceipt?_eq] at stored
  obtain ⟨operationId, _, stored⟩ := Option.bind_eq_some_iff.mp stored
  obtain ⟨paymentId, shown, stored⟩ := Option.bind_eq_some_iff.mp stored
  obtain ⟨occurredAt, _, stored⟩ := Option.bind_eq_some_iff.mp stored
  obtain ⟨result, _, stored⟩ := Option.map_eq_some_iff.mp stored
  rw [shown, ← stored]
  rfl

end Pair

def Context.signedOver (context : Context) (bodyHash : String) : Context :=
  { context with
    signatureVerified := some true, signatureVersion := some 1, bodySha256 := some bodyHash }

/-- Two callbacks are sent as the same bytes exactly where four fields agree. So of two with one
message id the later is answered `DUPLICATE` exactly there, whatever is called in between. -/
theorem callbacks_told_apart {left right : Value} {leftBytes rightBytes : ByteArray}
    (leftAccepted : validateLegacy left = .ok ()) (rightAccepted : validateLegacy right = .ok ())
    (leftSent : adapterBytes left = some leftBytes)
    (rightSent : adapterBytes right = some rightBytes) :
    (leftBytes = rightBytes ↔ SameFields left right) ∧
    ∀ (sha256 : ByteArray → String),
      (sha256 leftBytes = sha256 rightBytes → leftBytes = rightBytes) →
      Value.field left "providerPaymentId" = Value.field right "providerPaymentId" →
      ∀ (config : Config) (clock : Nat → Time) (digest : String → String) (before after : List Call)
        (context later : Context) (leftPayload rightPayload reply : Json) (stored : Db)
        (handed : List ClaimedJob),
        receivedPayload left = some leftPayload → receivedPayload right = some rightPayload →
        receiptAcceptV1 (reached config clock digest before).db
          (context.signedOver (sha256 leftBytes)) leftPayload = .ok (stored, .ok "RECEIVED" reply) →
        ((∃ last answer, receiptAcceptV1 (Runs.run step ⟨stored, handed⟩ after).db
            (later.signedOver (sha256 rightBytes)) rightPayload = .ok (last, .ok "DUPLICATE" answer)) ↔
          SameFields left right) := by
  obtain ⟨first, leftTexts⟩ := sent_of_accepted leftAccepted
  obtain ⟨second, rightTexts⟩ := sent_of_accepted rightAccepted
  rw [sameFields_iff leftTexts rightTexts]
  rw [adapterBytes_eq leftTexts] at leftSent
  rw [adapterBytes_eq rightTexts] at rightSent
  have apart : leftBytes = rightBytes ↔ first = second := by
    constructor
    · rintro rfl
      exact canonicalBytes_injective leftSent rightSent
    · rintro rfl
      exact Option.some.inj (leftSent.symm.trans rightSent)
  refine ⟨apart, ?_⟩
  intro sha256 collisionFree samePayment config clock digest before after context later leftPayload
    rightPayload reply stored handed leftRead rightRead returned
  rw [leftTexts.paymentId, rightTexts.paymentId, Value.text.injEq] at samePayment
  rw [receivedPayload_eq leftTexts] at leftRead
  rw [receivedPayload_eq rightTexts] at rightRead
  have sameMessage : leftPayload.text? "messageId" = rightPayload.text? "messageId" := by
    rw [messageId_of_stored leftRead, messageId_of_stored rightRead, samePayment]
  have steady : (reached config clock digest before).db.Steady := reached_steady before
  have storing : SystemMoves (reached config clock digest before).db stored :=
    (OtherMoves.of_outside (receiptAcceptV1_moves returned)).system
  have moves := run_moves after ⟨stored, handed⟩ (storing.steady steady)
  obtain ⟨receivable, externalRequestId, existing, named, known, seen, hash⟩ :=
    received_recalled steady rfl returned moves
  constructor
  · rintro ⟨last, answer, duplicate⟩
    obtain ⟨found, foundSeen, foundHash⟩ := duplicate_hash duplicate
    rw [← sameMessage, seen, Option.some.injEq] at foundSeen
    rw [← foundSeen, hash] at foundHash
    exact apart.mp (collisionFree (Option.some.inj foundHash).symm)
  · intro same
    have samePayload : leftPayload = rightPayload := by
      rw [same] at leftRead
      exact Option.some.inj (leftRead.symm.trans rightRead)
    have again : Receivable (later.signedOver (sha256 rightBytes)) rightPayload (sha256 leftBytes) :=
      ⟨rfl, rfl, samePayload ▸ receivable.version, by rw [apart.mpr same]; rfl, receivable.hex,
        samePayload ▸ receivable.occurredAt⟩
    rw [samePayload] at named seen
    have answered := receiptAcceptV1_seen again named known seen
    rw [duplicateReply, if_pos hash] at answered
    exact ⟨_, _, answered⟩

namespace Seed

def notified : Callback where
  paymentId := literal "first"
  operationId := literal (uuidText 10)
  occurredAt := literal "2026-07-15T10:20:30Z"
  result := literal "COMPLETED"

def notifiedPayload : Json :=
  .object [
    ("externalRequestId", .text (uuidText 10)), ("messageId", .text "first"),
    ("occurredAt", .text "2026-07-15T10:20:30Z"), ("outcome", .text "COMPLETED"),
    ("providerPaymentId", .text "first"), ("version", .number (.ofInt 1))]

def anyHash (_ : ByteArray) : String :=
  "0123456789abcdef0123456789abcdef0123456789abcdef0123456789abcdef"

end Seed

theorem Seed.first_received :
    ∃ stored answer, receiptAcceptV1 (seeded Seed.prepared).db
      ((Seed.caller "receipt:write").signedOver (Seed.anyHash .empty)) Seed.notifiedPayload =
        .ok (stored, .ok "RECEIVED" answer) := by
  have received : (receiptAcceptV1 (seeded Seed.prepared).db
      ((Seed.caller "receipt:write").signedOver (Seed.anyHash .empty))
        Seed.notifiedPayload).toOption.map Prod.snd =
          some (.ok "RECEIVED" (receiptResult (some "first") (some (uuidText 10)) "RECEIVED")) := by
    decide +kernel
  cases called : receiptAcceptV1 (seeded Seed.prepared).db
      ((Seed.caller "receipt:write").signedOver (Seed.anyHash .empty)) Seed.notifiedPayload with
  | error failure =>
      rw [called] at received
      cases received
  | ok done =>
      obtain ⟨stored, envelope⟩ := done
      rw [called] at received
      cases received
      exact ⟨stored, _, rfl⟩

/-- The same callback with another message text is a duplicate. -/
theorem callbacks_told_apart_repeated :
    ∃ bytes stored last answer,
      adapterBytes (Seed.notified.legacy (literal "done")) = some bytes ∧
      adapterBytes (Seed.notified.legacy []) = some bytes ∧
      receiptAcceptV1 (Runs.run step ⟨stored, []⟩ [Seed.claim]).db
        ((Seed.caller "receipt:write").signedOver (Seed.anyHash bytes)) Seed.notifiedPayload =
          .ok (last, .ok "DUPLICATE" answer) := by
  obtain ⟨bytes, encoded⟩ := Option.isSome_iff_exists.mp
    ((@Callback.canonicalBytes_isSome Seed.notified).mpr (by decide))
  obtain ⟨stored, reply, received⟩ := Seed.first_received
  have same : SameFields (Seed.notified.legacy (literal "done")) (Seed.notified.legacy []) := by
    intro field listed
    simp only [List.mem_cons, List.not_mem_nil, or_false] at listed
    rcases listed with rfl | rfl | rfl | rfl <;> rfl
  obtain ⟨_, answers⟩ := @callbacks_told_apart (Seed.notified.legacy (literal "done"))
    (Seed.notified.legacy []) bytes bytes rfl rfl encoded encoded
  obtain ⟨last, answer, duplicate⟩ := (answers Seed.anyHash (fun _ => rfl) rfl Seed.config
    (fun tick => (tick : Int)) id Seed.prepared [Seed.claim] _ (Seed.caller "receipt:write") _
    Seed.notifiedPayload reply stored [] (by decide +kernel) (by decide +kernel) received).mpr same
  exact ⟨bytes, stored, last, answer, encoded, encoded, duplicate⟩

end PaymentWorkflow
