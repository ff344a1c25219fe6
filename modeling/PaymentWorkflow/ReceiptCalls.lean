import PaymentWorkflow.ReceiptCore

/-! The statements of `receipt_accept_v1` and `succeed_outbox`, and what their calls come to. -/

namespace PaymentWorkflow

open RowLocks

/-! A `receipt_accept_v1` that nothing disturbs is the one of `DeliveryCore.lean`. -/

section Alone

variable {db : Db} {context : Context} {payload : Json}

theorem storeReceipt_eq (external : ExternalRequest) (bodyHash : String) :
    storeReceipt db external bodyHash payload =
      match readArrival db external bodyHash payload with
      | .error failure => .error failure
      | .ok (.answered reply) => .ok (db, reply)
      | .ok (.arrived arrival) =>
          match arrival.outcome with
          | none => .error (if payload.text? "outcome" = none then .notNullViolation
              else .checkViolation)
          | some outcome =>
              if db.delivery.receipts.any fun row => row.messageId = arrival.messageId then
                .error .uniqueViolation
              else
                .ok (((db.insertArrival arrival outcome db.now (db.clock (db.ticks + 1))).confirmDelivery
                  arrival.externalRequestId).tick.tick.tick,
                  .ok "RECEIVED" (receiptResult (payload.text? "messageId")
                    (payload.text? "externalRequestId") "RECEIVED")) := by
  unfold storeReceipt readArrival
  cases known : db.message? (payload.text? "messageId") with
  | some existing => rfl
  | none =>
      cases named : payload.text? "messageId" with
      | none => rfl
      | some messageId =>
          cases pinned : (Table.lookup Operation.id external.operationId
            db.payment.operations).bind Operation.processId with
          | none => rfl
          | some processId =>
              cases judged : payload.text? "outcome" with
              | none => rfl
              | some content =>
                  cases read : ReceiptOutcome.ofText? content with
                  | none => simp [read]
                  | some outcome =>
                      simp only [Option.bind_some, read]
                      split
                      · rfl
                      · rfl

theorem receiptAcceptV1_eq :
    receiptAcceptV1 db context payload =
      match checkReceipt db context payload with
      | .error failure => .error failure
      | .ok (.answered reply) => .ok (db, reply)
      | .ok (.arrived arrival) =>
          match arrival.outcome with
          | none => .error (if payload.text? "outcome" = none then .notNullViolation
              else .checkViolation)
          | some outcome =>
              if db.delivery.receipts.any fun row => row.messageId = arrival.messageId then
                .ok (db, takenReply db context payload)
              else
                .ok (((db.insertArrival arrival outcome db.now (db.clock (db.ticks + 1))).confirmDelivery
                  arrival.externalRequestId).tick.tick.tick,
                  .ok "RECEIVED" (receiptResult (payload.text? "messageId")
                    (payload.text? "externalRequestId") "RECEIVED")) := by
  unfold receiptAcceptV1 checkReceipt receiptAcceptBody
  cases intArgument payload "version" with
  | error failure => rfl
  | ok version =>
      simp only [bind, Except.bind]
      by_cases verified : context.signatureVerified ≠ some true
      · rw [if_pos verified, if_pos verified]
      rw [if_neg verified, if_neg verified]
      by_cases signed : context.signatureVersion ≠ some 1
      · rw [if_pos signed, if_pos signed]
      rw [if_neg signed, if_neg signed]
      by_cases current : version ≠ some 1
      · rw [if_pos current, if_pos current]
      rw [if_neg current, if_neg current]
      cases hashed : context.bodySha256 with
      | none => rfl
      | some bodyHash =>
          dsimp only
          by_cases hex : ¬ isSha256Hex bodyHash
          · rw [if_pos hex, if_pos hex]
          rw [if_neg hex, if_neg hex]
          by_cases occurred : ¬ (payload.text? "occurredAt").any isOccurredAt
          · rw [if_pos occurred, if_pos occurred]
          rw [if_neg occurred, if_neg occurred]
          cases (payload.text? "externalRequestId").bind fun id =>
            Table.lookup ExternalRequest.id id db.delivery.externalRequests with
              | none => rfl
              | some external =>
              simp only [storeReceipt_eq]
              cases read : readArrival db external bodyHash payload with
              | error failure =>
                  have raised : failure = .notNullViolation := by
                    unfold readArrival at read
                    split at read
                    · cases read
                    · split at read
                      · cases read
                      · exact (Except.error.inj read).symm
                  rw [raised]
              | ok check =>
                  cases check with
                  | answered reply => rfl
                  | arrived arrival =>
                      cases judged : arrival.outcome with
                      | none =>
                          by_cases missing : payload.text? "outcome" = none <;>
                            simp only [judged, missing, if_true, if_false]
                      | some outcome =>
                          simp only [judged]
                          by_cases taken : (db.delivery.receipts.any fun row =>
                              row.messageId = arrival.messageId) = true
                          · rw [if_pos taken, if_pos taken]
                            simp only [takenReply, hashed]
                            cases db.message? (payload.text? "messageId") <;> rfl
                          · rw [if_neg taken, if_neg taken]

/-- A call either stores the receipt it was sent or leaves every table as it was. -/
theorem receiptAcceptV1_cases {later : Db} {envelope : Envelope}
    (returned : receiptAcceptV1 db context payload = .ok (later, envelope)) :
    later = db ∨ ∃ arrival outcome, checkReceipt db context payload = .ok (.arrived arrival) ∧
      arrival.outcome = some outcome ∧
      (db.delivery.receipts.any fun row => row.messageId = arrival.messageId) = false ∧
      later = ((db.insertArrival arrival outcome db.now (db.clock (db.ticks + 1))).confirmDelivery
        arrival.externalRequestId).tick.tick.tick := by
  rw [receiptAcceptV1_eq] at returned
  split at returned
  · cases returned
  · cases returned
    exact .inl rfl
  rename_i arrival arrived
  split at returned
  · cases returned
  rename_i outcome judged
  split at returned
  · cases returned
    exact .inl rfl
  rename_i fresh
  cases returned
  exact .inr ⟨arrival, outcome, arrived, judged, Bool.eq_false_iff.mpr fresh, rfl⟩

def AcceptStage.alone (context : Context) (payload : Json) (place : Db × AcceptStage) (_ : Unit) :
    Db × AcceptStage :=
  place.2.perform place.1 context payload

theorem AcceptStage.alone_ended (ending : Ending) (rest : List Unit) :
    Runs.run (AcceptStage.alone context payload) (db, .ended ending) rest = (db, .ended ending) := by
  induction rest with
  | nil => rfl
  | cons _ rest ih => exact ih

/-- The checks of `receipt_accept_v1` that read no table, passed. -/
structure Receivable (context : Context) (payload : Json) (bodyHash : String) : Prop where
  verified : context.signatureVerified = some true
  signed : context.signatureVersion = some 1
  version : intArgument payload "version" = .ok (some 1)
  hashed : context.bodySha256 = some bodyHash
  hex : isSha256Hex bodyHash = true
  occurredAt : (payload.text? "occurredAt").any isOccurredAt = true

/-- A call is refused by a check of its own, or gets to read the messages. -/
theorem checkReceipt_cases {check : ReceiptCheck}
    (checked : checkReceipt db context payload = .ok check) :
    (∃ code message, check = .answered (.error code message)) ∨
      ∃ bodyHash external, Receivable context payload bodyHash ∧
        ((payload.text? "externalRequestId").bind fun id =>
          Table.lookup ExternalRequest.id id db.delivery.externalRequests) = some external ∧
        readArrival db external bodyHash payload = .ok check := by
  obtain ⟨version, read, checked⟩ := Runs.bind_eq_ok.mp checked
  have refused : ∀ {code message}, (Except.ok (.answered (.error code message)) :
      Except SqlError ReceiptCheck) = .ok check →
        ∃ code message, check = .answered (.error code message) := by
    intro code message same
    exact ⟨code, message, (Except.ok.inj same).symm⟩
  split at checked
  · exact .inl (refused checked)
  rename_i verified
  split at checked
  · exact .inl (refused checked)
  rename_i signed
  split at checked
  · exact .inl (refused checked)
  rename_i current
  split at checked
  · exact .inl (refused checked)
  rename_i bodyHash hashed
  split at checked
  · exact .inl (refused checked)
  rename_i hex
  split at checked
  · exact .inl (refused checked)
  rename_i occurredAt
  split at checked
  · exact .inl (refused checked)
  rename_i external found
  rw [not_not] at verified signed current hex occurredAt
  rw [current] at read
  exact .inr ⟨bodyHash, external, ⟨verified, signed, read, hashed, hex, occurredAt⟩, found, checked⟩

theorem checkReceipt_of_receivable {bodyHash : String} {external : ExternalRequest}
    (receivable : Receivable context payload bodyHash)
    (found : ((payload.text? "externalRequestId").bind fun id =>
      Table.lookup ExternalRequest.id id db.delivery.externalRequests) = some external) :
    checkReceipt db context payload = readArrival db external bodyHash payload := by
  simp [checkReceipt, receivable.version, bind, Except.bind, receivable.verified,
    receivable.signed, receivable.hashed, receivable.hex, receivable.occurredAt, found]

theorem readArrival_arrived {external : ExternalRequest} {bodyHash : String} {arrival : Arrival}
    (arrived : readArrival db external bodyHash payload = .ok (.arrived arrival)) :
    db.message? (some arrival.messageId) = none ∧
      payload.text? "messageId" = some arrival.messageId ∧
      (Table.lookup Operation.id external.operationId db.payment.operations).bind
        Operation.processId = some arrival.processId ∧
      arrival.externalRequestId = external.id ∧
      arrival.bodyHash = bodyHash ∧ arrival.body = receiptBody payload := by
  unfold readArrival at arrived
  split at arrived
  · cases arrived
  rename_i unknown
  split at arrived
  · rename_i messageId processId named pinned
    cases arrived
    rw [named] at unknown
    exact ⟨unknown, named, pinned, rfl, rfl, rfl⟩
  · cases arrived

theorem readArrival_answered {external : ExternalRequest} {bodyHash : String} {reply : Envelope}
    (answered : readArrival db external bodyHash payload = .ok (.answered reply)) :
    ∃ existing, db.message? (payload.text? "messageId") = some existing ∧
      reply = duplicateReply existing bodyHash (payload.text? "messageId")
        (payload.text? "externalRequestId") "messageId is already used with a different body" := by
  unfold readArrival at answered
  split at answered
  · rename_i existing found
    cases answered
    exact ⟨existing, found, rfl⟩
  · split at answered <;> cases answered

theorem checkReceipt_arrived {arrival : Arrival}
    (arrived : checkReceipt db context payload = .ok (.arrived arrival)) :
    (db.delivery.inbox.any fun row => row.messageId = arrival.messageId) = false := by
  obtain ⟨_, _, refused⟩ | ⟨bodyHash, external, _, _, read⟩ := checkReceipt_cases arrived
  · cases refused
  · have unknown : Table.lookup InboxRow.messageId arrival.messageId db.delivery.inbox = none :=
      (readArrival_arrived read).1
    simpa using Table.lookup_eq_none.mp unknown

/-- Undisturbed, the statements come to what the function returns, clock readings apart. -/
theorem receiptAccept_alone : ∃ ticks,
    match receiptAcceptV1 db context payload with
    | .ok (later, reply) =>
        Runs.run (AcceptStage.alone context payload) (db, .called) (List.replicate 8 ()) =
          ({ later with ticks }, .ended (.replied reply))
    | .error _ => ∃ failure,
        Runs.run (AcceptStage.alone context payload) (db, .called) (List.replicate 8 ()) =
          ({ db with ticks }, .ended (.raised failure)) := by
  have first : AcceptStage.alone context payload (db, .called) () =
      AcceptStage.perform db context payload .called := rfl
  rw [receiptAcceptV1_eq]
  simp only [List.replicate, Runs.run_cons, first, AcceptStage.perform]
  cases checked : checkReceipt db context payload with
  | error failure => exact ⟨db.ticks, failure, AcceptStage.alone_ended ..⟩
  | ok check =>
      cases check with
      | answered reply => exact ⟨db.ticks, AcceptStage.alone_ended ..⟩
      | arrived arrival =>
          have fresh := checkReceipt_arrived checked
          have stored : AcceptStage.alone context payload (db, .storing arrival) () =
              (db.tick, .referringExternal arrival db.now) := by
            simp [AcceptStage.alone, AcceptStage.perform, fresh]
          have referred : ∀ storedAt, AcceptStage.alone context payload
              (AcceptStage.alone context payload (db.tick, .referringExternal arrival storedAt) ()) () =
                (db.tick, .recording arrival storedAt) := fun _ => rfl
          dsimp only
          rw [stored, referred]
          cases judged : arrival.outcome with
          | none =>
              have refused : AcceptStage.alone context payload (db.tick, .recording arrival db.now) () =
                  (db.tick, .ended (.raised .checkViolation)) := by
                simp [AcceptStage.alone, AcceptStage.perform, judged]
              rw [refused]
              exact ⟨db.ticks + 1, .checkViolation, rfl⟩
          | some outcome =>
              by_cases taken : (db.delivery.receipts.any fun row =>
                  row.messageId = arrival.messageId) = true
              · have refused : AcceptStage.alone context payload
                    (db.tick, .recording arrival db.now) () =
                      (db.tick, .ended (.replied (takenReply db context payload))) := by
                  simp only [AcceptStage.alone, AcceptStage.perform, judged, Db.tick_delivery, taken,
                    if_true]
                  rfl
                rw [refused]
                dsimp only
                rw [if_pos taken]
                exact ⟨db.ticks + 1, rfl⟩
              · have recorded : AcceptStage.alone context payload
                    (db.tick, .recording arrival db.now) () =
                      (db.tick.tick, .confirming arrival outcome db.now (db.clock (db.ticks + 1))) := by
                  simp only [AcceptStage.alone, AcceptStage.perform, judged, Db.tick_delivery, taken]
                  rfl
                rw [recorded]
                dsimp only
                rw [if_neg taken]
                exact ⟨db.ticks + 3, rfl⟩

theorem succeedOutbox_alone (report : Report) :
    Runs.run (fun place (_ : Unit) => SucceedStage.perform place.1 report place.2) (db, .called)
      (List.replicate 3 ()) =
        ((succeedOutbox db report.outboxId report.owner report.leaseVersion
            report.providerPaymentId).1,
          .ended (succeedOutbox db report.outboxId report.owner report.leaseVersion
            report.providerPaymentId).2) := by
  cases found : db.delivery.outbox.find? report.covers with
  | none =>
      have missed : db.delivery.outbox.find? (fun row =>
          row.heldBy report.outboxId report.owner report.leaseVersion) = none := found
      simp only [List.replicate, Runs.run_cons, Runs.run_nil, SucceedStage.perform, found,
        succeedOutbox, missed]
  | some row =>
      have hit : db.delivery.outbox.find? (fun row =>
          row.heldBy report.outboxId report.owner report.leaseVersion) = some row := found
      simp only [List.replicate, Runs.run_cons, Runs.run_nil, SucceedStage.perform, found,
        succeedOutbox, hit]

end Alone

end PaymentWorkflow
