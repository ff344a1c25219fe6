import PaymentWorkflow.ReceiptCalls
import PaymentWorkflow.SystemRuns

/-! What a stored message is to a later call: the row is kept, and decides what is answered. -/

namespace PaymentWorkflow

def InboxRow.stored (row : InboxRow) : InboxRow := { row with state := .received }

theorem Table.lookup_of_map {Row Key : Type} [DecidableEq Key] (key : Row → Key) (image : Row → Row)
    (keyed : ∀ row, key (image row) = key row) {left right : List Row}
    (same : right.map image = left.map image) (value : Key) :
    (Table.lookup key value right).map image = (Table.lookup key value left).map image := by
  have mapped : ∀ table : List Row, (Table.lookup key value table).map image =
      Table.lookup key value (table.map image) := by
    intro table
    have tested : (fun row => decide (key row = value)) ∘ image = fun row => decide (key row = value) := by
      funext row
      rw [Function.comp_apply, keyed]
    rw [Table.lookup, Table.lookup, List.find?_map, tested]
  rw [mapped, mapped, same]

theorem Table.lookup_isSome {Row Key : Type} [DecidableEq Key] {key : Row → Key} {value : Key}
    {table : List Row} : (Table.lookup key value table).isSome = true ↔ value ∈ table.map key := by
  simp [Table.lookup, List.find?_isSome]

theorem EngineMove.inbox_stored {processId : Nat} {db later : Db}
    (move : EngineMove processId db later) :
    later.delivery.inbox.map InboxRow.stored = db.delivery.inbox.map InboxRow.stored := by
  cases move with
  | applied =>
      rw [Db.markApplied_delivery_inbox, Table.map_update]
      exact fun _ => rfl
  | started | signalled | finished | decided => exact congrArg _ (by rw [Db.placeStep_delivery]; rfl)
  | _ => rfl

structure Db.Recalls (db later : Db) : Prop where
  message : ∀ id row, db.message? id = some row →
    ∃ kept, later.message? id = some kept ∧ kept.stored = row.stored
  external : ∀ id, (Table.lookup ExternalRequest.id id db.delivery.externalRequests).isSome = true →
    (Table.lookup ExternalRequest.id id later.delivery.externalRequests).isSome = true

namespace Db.Recalls

variable {first second third : Db}

theorem refl (db : Db) : db.Recalls db :=
  ⟨fun _ row found => ⟨row, found, rfl⟩, fun _ found => found⟩

theorem trans (left : first.Recalls second) (right : second.Recalls third) :
    first.Recalls third where
  message := by
    intro id row found
    obtain ⟨between, seen, same⟩ := left.message id row found
    obtain ⟨kept, last, equal⟩ := right.message id between seen
    exact ⟨kept, last, equal.trans same⟩
  external id found := right.external id (left.external id found)

theorem of_stored (inbox : second.delivery.inbox.map InboxRow.stored =
      first.delivery.inbox.map InboxRow.stored)
    (externals : second.delivery.externalRequests.map ExternalRequest.id =
      first.delivery.externalRequests.map ExternalRequest.id) : first.Recalls second where
  message := by
    intro id row found
    cases id with
    | none => cases found
    | some id =>
        have mapped := Table.lookup_of_map InboxRow.messageId InboxRow.stored (fun _ => rfl) inbox id
        rw [show Table.lookup InboxRow.messageId id first.delivery.inbox = some row from found,
          Option.map_some] at mapped
        exact Option.map_eq_some_iff.mp mapped
  external := by
    intro id found
    rw [Table.lookup_isSome] at found ⊢
    rw [externals]
    exact found

end Db.Recalls

theorem OutsideMove.recalls {db later : Db} (move : OutsideMove db later) : db.Recalls later := by
  cases move with
  | prepared correlationId =>
      refine ⟨fun id row found => ⟨row, found, rfl⟩, fun id found => ?_⟩
      rw [Table.lookup_isSome] at found ⊢
      rw [Db.insertOutbox_delivery_externalRequests, Db.insertExternal_delivery_externalRequests,
        List.map_append]
      exact List.mem_append_left _ found
  | outboxDelivered =>
      refine .of_stored rfl ?_
      rw [Db.updateExternal_delivery_externalRequests, Table.map_update]
      · rfl
      · exact fun _ => rfl
  | @received external messageId bodyHash processId operation outcome body _ _ _ fresh =>
      refine ⟨fun id row found => ⟨row, ?_, rfl⟩, fun id found => ?_⟩
      · cases id with
        | none => cases found
        | some id =>
            have inbox : Table.lookup InboxRow.messageId id db.delivery.inbox = some row := found
            exact (Table.lookup_append _ _ _ _).trans (by rw [inbox]; rfl)
      · rw [Table.lookup_isSome] at found ⊢
        have kept : (Db.confirmDelivery (db.insertReceipt messageId external.id processId outcome
            bodyHash body) external.id).delivery.externalRequests.map ExternalRequest.id =
              db.delivery.externalRequests.map ExternalRequest.id := by
          show (Table.update _ _ _).map _ = _
          rw [Table.map_update]
          · rfl
          · exact fun _ => rfl
        rw [kept]
        exact found
  | _ => exact .of_stored rfl rfl

theorem SystemMoves.recalls {db later : Db} (moves : SystemMoves db later) (steady : db.Steady) :
    db.Recalls later := by
  refine SystemMoves.invariant (fun later => db.Recalls later) ?_ ?_ ?_ moves steady (.refl db)
  · intro processId before after _ _ recalls move
    refine recalls.trans (.of_stored move.inbox_stored ?_)
    rw [move.outbox_eq.1]
  · intro before after _ _ recalls move
    exact recalls.trans move.recalls
  · intro target operation before after _ _ recalls move
    refine recalls.trans (.of_stored ?_ ?_)
    · rw [move.delivery_eq]
    · rw [move.delivery_eq]

/-! What decides the answer. -/

section Answers

variable {db later : Db} {context : Context} {payload : Json}

/-- With the checks passed and a message of this id stored, its hash decides. -/
theorem receiptAcceptV1_seen {bodyHash externalRequestId : String} {existing : InboxRow}
    (receivable : Receivable context payload bodyHash)
    (named : payload.text? "externalRequestId" = some externalRequestId)
    (known : (Table.lookup ExternalRequest.id externalRequestId
      db.delivery.externalRequests).isSome = true)
    (seen : db.message? (payload.text? "messageId") = some existing) :
    receiptAcceptV1 db context payload =
      .ok (db, duplicateReply existing bodyHash (payload.text? "messageId")
        (payload.text? "externalRequestId") "messageId is already used with a different body") := by
  obtain ⟨external, found⟩ := Option.isSome_iff_exists.mp known
  rw [receiptAcceptV1_eq, checkReceipt_of_receivable receivable (by rw [named]; exact found)]
  simp only [readArrival, seen]

theorem duplicateReply_ok {existing : InboxRow} {bodyHash conflict : String}
    {messageId externalRequestId : Option String} {reply : Json}
    (duplicate : duplicateReply existing bodyHash messageId externalRequestId conflict =
      .ok "DUPLICATE" reply) : existing.bodyHash = bodyHash := by
  unfold duplicateReply at duplicate
  split at duplicate
  · assumption
  · cases duplicate

theorem duplicateReply_ne {existing : InboxRow} {bodyHash conflict : String}
    {messageId externalRequestId : Option String} (reply : Json) :
    duplicateReply existing bodyHash messageId externalRequestId conflict ≠ .ok "RECEIVED" reply := by
  unfold duplicateReply
  split
  · simp
  · exact nofun

/-- A call that returns was refused, met a message of its id, or stored one. -/
theorem receiptAcceptV1_returned {envelope : Envelope}
    (returned : receiptAcceptV1 db context payload = .ok (later, envelope)) :
    (later = db ∧ ∃ code message, envelope = .error code message) ∨
    (later = db ∧ ∃ existing bodyHash conflict, context.bodySha256 = some bodyHash ∧
      db.message? (payload.text? "messageId") = some existing ∧
      envelope = duplicateReply existing bodyHash (payload.text? "messageId")
        (payload.text? "externalRequestId") conflict) ∨
    ∃ arrival outcome, checkReceipt db context payload = .ok (.arrived arrival) ∧
      later = ((db.insertArrival arrival outcome db.now (db.clock (db.ticks + 1))).confirmDelivery
        arrival.externalRequestId).tick.tick.tick ∧
      envelope = .ok "RECEIVED" (receiptResult (payload.text? "messageId")
        (payload.text? "externalRequestId") "RECEIVED") := by
  rw [receiptAcceptV1_eq] at returned
  split at returned
  · cases returned
  · rename_i answer checked
    cases returned
    obtain ⟨code, message, same⟩ | ⟨bodyHash, external, receivable, _, read⟩ :=
      checkReceipt_cases checked
    · cases same
      exact .inl ⟨rfl, code, message, rfl⟩
    · obtain ⟨existing, found, same⟩ := readArrival_answered read
      exact .inr (.inl ⟨rfl, existing, bodyHash, _, receivable.hashed, found, same⟩)
  · rename_i arrival arrived
    split at returned
    · cases returned
    rename_i outcome _
    split at returned
    · cases returned
      unfold takenReply
      split
      · rename_i existing bodyHash found hashed
        exact .inr (.inl ⟨rfl, existing, bodyHash, _, hashed, found, rfl⟩)
      · exact .inl ⟨rfl, _, _, rfl⟩
    · cases returned
      exact .inr (.inr ⟨arrival, outcome, arrived, rfl, rfl⟩)

/-- `DUPLICATE` is answered to the stored hash alone. -/
theorem duplicate_hash {reply : Json}
    (returned : receiptAcceptV1 db context payload = .ok (later, .ok "DUPLICATE" reply)) :
    ∃ existing, db.message? (payload.text? "messageId") = some existing ∧
      context.bodySha256 = some existing.bodyHash := by
  obtain ⟨_, _, _, refused⟩ | ⟨_, existing, bodyHash, _, hashed, found, same⟩ |
    ⟨_, _, _, _, stored⟩ := receiptAcceptV1_returned returned
  · cases refused
  · exact ⟨existing, found, by rw [hashed, duplicateReply_ok same.symm]⟩
  · simp at stored

theorem received_stored {reply : Json}
    (returned : receiptAcceptV1 db context payload = .ok (later, .ok "RECEIVED" reply)) :
    ∃ arrival existing, checkReceipt db context payload = .ok (.arrived arrival) ∧
      later.message? (some arrival.messageId) = some existing ∧
      existing.bodyHash = arrival.bodyHash := by
  obtain ⟨_, _, _, refused⟩ | ⟨_, _, _, _, _, _, same⟩ | ⟨arrival, outcome, arrived, stored, _⟩ :=
    receiptAcceptV1_returned returned
  · cases refused
  · exact absurd same.symm (duplicateReply_ne reply)
  · have unknown : Table.lookup InboxRow.messageId arrival.messageId db.delivery.inbox = none :=
      Table.lookup_eq_none.mpr (by simpa using checkReceipt_arrived arrived)
    refine ⟨arrival, ⟨arrival.messageId, arrival.externalRequestId, arrival.processId,
      "payment.receipt", arrival.bodyHash, arrival.body, .received, db.now⟩, arrived, ?_, rfl⟩
    rw [stored]
    exact (Table.lookup_append _ _ _ _).trans (by rw [unknown]; simp [Table.lookup])

/-- The message a call stored is still known to every later call, under the hash it came with. -/
theorem received_recalled {stored : Db} {reply : Json} {bodyHash : String}
    (steady : db.Steady) (hashed : context.bodySha256 = some bodyHash)
    (returned : receiptAcceptV1 db context payload = .ok (stored, .ok "RECEIVED" reply))
    (moves : SystemMoves stored later) :
    Receivable context payload bodyHash ∧ ∃ externalRequestId existing,
      payload.text? "externalRequestId" = some externalRequestId ∧
      (Table.lookup ExternalRequest.id externalRequestId
        later.delivery.externalRequests).isSome = true ∧
      later.message? (payload.text? "messageId") = some existing ∧
      existing.bodyHash = bodyHash := by
  have storing : SystemMoves db stored :=
    (OtherMoves.of_outside (receiptAcceptV1_moves returned)).system
  have recalls := moves.recalls (storing.steady steady)
  obtain ⟨arrival, existing, arrived, found, kept⟩ := received_stored returned
  obtain ⟨_, _, refused⟩ | ⟨sent, external, receivable, looked, read⟩ := checkReceipt_cases arrived
  · cases refused
  obtain ⟨_, messageId, _, _, same, _⟩ := readArrival_arrived read
  obtain ⟨externalRequestId, named, known⟩ := Option.bind_eq_some_iff.mp looked
  obtain ⟨last, lastFound, lastSame⟩ := recalls.message _ existing found
  obtain rfl : sent = bodyHash := Option.some.inj (receivable.hashed.symm.trans hashed)
  refine ⟨receivable, externalRequestId, last, named, ?_, ?_, ?_⟩
  · refine recalls.external _ ((storing.recalls steady).external _ ?_)
    rw [known, Option.isSome_some]
  · rw [messageId]
    exact lastFound
  · rw [show last.bodyHash = existing.bodyHash from (InboxRow.mk.inj lastSame).2.2.2.2.1, kept, same]

end Answers

end PaymentWorkflow
