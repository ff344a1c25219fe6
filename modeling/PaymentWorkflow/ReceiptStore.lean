import PaymentWorkflow.AcceptProofs
import PaymentWorkflow.OperationProofs
import PaymentWorkflow.EndpointProofs
import PaymentWorkflow.InboxProofs
import PaymentWorkflow.ReceiptProofs

/-! The store of receipts: of the messages with one id the first is kept, and kept whole. -/

namespace PaymentWorkflow

open RowLocks

structure Message where
  messageId : String
  externalRequestId : String
  bodyHash : String
  payload : Json

def InboxRow.message (row : InboxRow) : Message :=
  ⟨row.messageId, row.externalRequestId, row.bodyHash, row.payload⟩

def Receipt.message (receipt : Receipt) : Message :=
  ⟨receipt.messageId, receipt.externalRequestId, receipt.bodyHash, receipt.body⟩

def Db.Owns (db : Db) (externalRequestId : String) (processId : Nat) : Prop :=
  ∃ external ∈ db.delivery.externalRequests, external.id = externalRequestId ∧
    ∃ operation ∈ db.payment.operations, operation.id = external.operationId ∧
      operation.processId = some processId

/-- Inbox and receipts are written together, so the two tables run in parallel. -/
structure Db.Filing (db : Db) : Prop where
  unique : (db.delivery.inbox.map InboxRow.messageId).Nodup
  paired : db.delivery.inbox.map InboxRow.message = db.delivery.receipts.map Receipt.message
  owned : ∀ row ∈ db.delivery.inbox, db.Owns row.externalRequestId row.processId

section Moves

variable {db later : Db}

theorem Db.Owns.kept {externalRequestId : String} {processId : Nat}
    (owns : db.Owns externalRequestId processId) (moved : Delivery.Moved db.delivery later.delivery)
    (follows : db.Follows later) : later.Owns externalRequestId processId := by
  obtain ⟨external, member, id, operation, operationMember, operationId, pinned⟩ := owns
  obtain ⟨after, afterMember, sameId, sameOperation, _⟩ := moved.external external member
  obtain ⟨row, rowMember, kept⟩ := follows operation operationMember
  exact ⟨after, afterMember, sameId.trans id, row, rowMember,
    kept.id.trans (operationId.trans sameOperation.symm), kept.pinned processId pinned⟩

/-- Nothing was filed: the rows are those from before, but for how far they have come. -/
theorem Db.Filing.of_mail (filing : db.Filing) (same : later.mail = db.mail)
    (kept : ∀ {externalRequestId processId}, db.Owns externalRequestId processId →
      later.Owns externalRequestId processId) : later.Filing := by
  obtain ⟨inbox, receipts⟩ := Prod.mk.inj same
  have projected : ∀ {Column : Type} (column : InboxRow → Column),
      (∀ row, column { row with state := .received } = column row) →
        later.delivery.inbox.map column = db.delivery.inbox.map column := by
    intro Column column stateless
    have mapped := congrArg (List.map column) inbox
    simpa only [Db.mail, List.map_map, Function.comp_def, stateless] using mapped
  have messages : later.delivery.receipts.map Receipt.message =
      db.delivery.receipts.map Receipt.message := by
    have mapped := congrArg (List.map Receipt.message) receipts
    rw [List.map_map, List.map_map] at mapped
    exact mapped
  refine ⟨?_, ?_, ?_⟩
  · rw [projected InboxRow.messageId fun _ => rfl]
    exact filing.unique
  · rw [projected InboxRow.message fun _ => rfl, messages]
    exact filing.paired
  · intro row member
    have inside := List.mem_map_of_mem (f := fun row => (row.externalRequestId, row.processId)) member
    rw [projected (fun row => (row.externalRequestId, row.processId)) fun _ => rfl] at inside
    obtain ⟨old, oldMember, columns⟩ := List.mem_map.mp inside
    obtain ⟨external, process⟩ := Prod.mk.inj columns
    rw [← external, ← process]
    exact kept (filing.owned old oldMember)

theorem Db.Filing.filed (filing : db.Filing) {row : InboxRow} {receipt : Receipt}
    (inbox : later.delivery.inbox = db.delivery.inbox ++ [row])
    (receipts : later.delivery.receipts = db.delivery.receipts ++ [receipt])
    (same : row.message = receipt.message)
    (fresh : db.message? (some row.messageId) = none)
    (owns : db.Owns row.externalRequestId row.processId)
    (kept : ∀ {externalRequestId processId}, db.Owns externalRequestId processId →
      later.Owns externalRequestId processId) : later.Filing := by
  have absent : ∀ old ∈ db.delivery.inbox, old.messageId ≠ row.messageId :=
    Table.lookup_eq_none.mp fresh
  refine ⟨?_, ?_, ?_⟩
  · rw [inbox, List.map_append, List.nodup_append]
    refine ⟨filing.unique, List.nodup_singleton _, ?_⟩
    intro left inside right single equal
    obtain ⟨old, member, rfl⟩ := List.mem_map.mp inside
    rw [List.map_singleton, List.mem_singleton] at single
    exact absent old member (equal.trans single)
  · rw [inbox, receipts, List.map_append, List.map_append, filing.paired]
    simp only [List.map_singleton, same]
  · intro stored member
    rw [inbox] at member
    rcases List.mem_append.mp member with old | new
    · exact kept (filing.owned stored old)
    · rw [List.mem_singleton.mp new]
      exact kept owns

theorem OutsideMove.filing (move : OutsideMove db later) (ledger : db.Ledger)
    (lattice : db.delivery.Lattice) (filing : db.Filing) : later.Filing := by
  have kept : ∀ {externalRequestId processId}, db.Owns externalRequestId processId →
      later.Owns externalRequestId processId :=
    fun owns => owns.kept (move.delivery ledger lattice).2 (move.follows ledger)
  cases move with
  | received outcome body member owner pinned freshMessage =>
      obtain ⟨operationMember, id⟩ := Table.lookup_mem owner
      exact filing.filed rfl rfl rfl freshMessage
        ⟨_, member, rfl, _, operationMember, id, pinned⟩ kept
  | _ => exact filing.of_mail rfl kept

end Moves

theorem reached_filing (config : Config) (clock : Nat → Time) (digest : String → String)
    (calls : List Call) : (reached config clock digest calls).db.Filing := by
  have both : (reached config clock digest calls).db.delivery.Lattice ∧
      (reached config clock digest calls).db.Filing := by
    refine reached_invariant (fun db => db.delivery.Lattice ∧ db.Filing) ?_ ?_ ?_
      ⟨initial_lattice, by constructor <;> simp [Db.initial]⟩ calls
    · intro processId before after _ _ holds move
      have delivered := move.delivery holds.1
      exact ⟨delivered.1, holds.2.of_mail move.mail
        fun owns => owns.kept delivered.2 (.of_eq move.operations_eq.1)⟩
    · intro before after _ ledger holds move
      exact ⟨(move.delivery ledger holds.1).1, move.filing ledger holds.1 holds.2⟩
    · intro target operation before after _ ledger holds move
      have same := move.delivery_eq
      exact ⟨same ▸ holds.1, holds.2.of_mail (Db.mail_of_delivery same)
        fun owns => owns.kept (same ▸ .refl _) (move.follows ledger)⟩
  exact both.2

/-! The calls, statement by statement. -/

structure Db.SameRequests (db later : Db) : Prop where
  payment : later.payment = db.payment
  externals : later.delivery.externalRequests.map (fun row => (row.id, row.operationId)) =
    db.delivery.externalRequests.map fun row => (row.id, row.operationId)

section Perform

variable {db later : Db}

theorem Db.Owns.same {externalRequestId : String} {processId : Nat}
    (owns : db.Owns externalRequestId processId) (same : db.SameRequests later) :
    later.Owns externalRequestId processId := by
  obtain ⟨external, member, id, operation, operationMember, operationId, pinned⟩ := owns
  have inside := List.mem_map_of_mem (f := fun row => (row.id, row.operationId)) member
  rw [← same.externals] at inside
  obtain ⟨after, afterMember, columns⟩ := List.mem_map.mp inside
  obtain ⟨sameId, sameOperation⟩ := Prod.mk.inj columns
  exact ⟨after, afterMember, sameId.trans id, operation, same.payment ▸ operationMember,
    operationId.trans sameOperation.symm, pinned⟩

theorem Db.SameRequests.known (same : db.SameRequests later) {id : String} :
    (Table.lookup ExternalRequest.id id later.delivery.externalRequests).isSome =
      (Table.lookup ExternalRequest.id id db.delivery.externalRequests).isSome := by
  have ids := congrArg (List.map Prod.fst) same.externals
  rw [List.map_map, List.map_map] at ids
  rw [Bool.eq_iff_iff, Table.lookup_isSome, Table.lookup_isSome]
  change id ∈ later.delivery.externalRequests.map (Prod.fst ∘ fun row => (row.id, row.operationId)) ↔
    id ∈ db.delivery.externalRequests.map (Prod.fst ∘ fun row => (row.id, row.operationId))
  rw [ids]

/-- One statement of a call: it leaves the delivery tables alone, or commits what was read. -/
theorem AcceptStage.perform_cases (db : Db) (context : Context) (payload : Json)
    (stage : AcceptStage) :
    ((stage.perform db context payload).1.delivery = db.delivery ∧
      (stage.perform db context payload).1.payment = db.payment) ∨
    ∃ arrival outcome storedAt recordedAt released,
      stage = .committing arrival outcome storedAt recordedAt released := by
  cases stage with
  | committing => exact .inr ⟨_, _, _, _, _, rfl⟩
  | called =>
      simp only [perform]
      split <;> exact .inl ⟨rfl, rfl⟩
  | storing =>
      simp only [perform]
      split <;> exact .inl ⟨rfl, rfl⟩
  | recording =>
      simp only [perform]
      split
      · exact .inl ⟨rfl, rfl⟩
      · split <;> exact .inl ⟨rfl, rfl⟩
  | referringExternal | referringProcess | confirming | releasing | ended => exact .inl ⟨rfl, rfl⟩

theorem Db.SameRequests.of_delivery (delivery : later.delivery = db.delivery)
    (payment : later.payment = db.payment) : db.SameRequests later :=
  ⟨payment, by rw [delivery]⟩

theorem DeliveryParty.perform_requests (db : Db) (party : DeliveryParty) :
    db.SameRequests (party.perform db).1 := by
  cases party with
  | idle => exact .of_delivery rfl rfl
  | accepting context payload stage =>
      obtain ⟨delivery, payment⟩ | ⟨arrival, outcome, storedAt, recordedAt, released, rfl⟩ :=
        stage.perform_cases db context payload
      · exact .of_delivery delivery payment
      · refine ⟨rfl, ?_⟩
        show (Table.update _ _ _).map _ = _
        rw [Table.map_update]
        · rfl
        · exact fun _ => rfl
  | reporting report stage =>
      cases stage with
      | called =>
          simp only [perform, SucceedStage.perform]
          split <;> exact .of_delivery rfl rfl
      | sending | ended => exact .of_delivery rfl rfl
      | committing =>
          simp only [perform, SucceedStage.perform, succeedOutbox]
          split
          · exact .of_delivery rfl rfl
          · refine ⟨rfl, ?_⟩
            show (Table.update _ _ _).map _ = _
            rw [Table.map_update]
            · rfl
            · exact fun _ => rfl

/-- Only the commit of a call files anything, and then one message. -/
theorem DeliveryParty.perform_mail (db : Db) (party : DeliveryParty) :
    ((party.perform db).1.delivery.inbox = db.delivery.inbox ∧
      (party.perform db).1.delivery.receipts = db.delivery.receipts) ∨
    ∃ context payload arrival outcome storedAt recordedAt released,
      party = .accepting context payload
        (.committing arrival outcome storedAt recordedAt released) := by
  cases party with
  | idle => exact .inl ⟨rfl, rfl⟩
  | accepting context payload stage =>
      obtain ⟨delivery, _⟩ | ⟨arrival, outcome, storedAt, recordedAt, released, rfl⟩ :=
        stage.perform_cases db context payload
      · refine .inl ⟨?_, ?_⟩
        · exact congrArg Delivery.inbox delivery
        · exact congrArg Delivery.receipts delivery
      · exact .inr ⟨_, _, _, _, _, _, _, rfl⟩
  | reporting report stage =>
      refine .inl ?_
      cases stage with
      | called =>
          simp only [perform, SucceedStage.perform]
          split <;> exact ⟨rfl, rfl⟩
      | sending | ended => exact ⟨rfl, rfl⟩
      | committing =>
          simp only [perform, SucceedStage.perform, succeedOutbox]
          split <;> exact ⟨rfl, rfl⟩

end Perform

/-! What each call has read, and what an ended one was answered. -/

structure Arrival.Read (arrival : Arrival) (db : Db) (context : Context) (payload : Json) : Prop where
  messageId : payload.text? "messageId" = some arrival.messageId
  hashed : context.bodySha256 = some arrival.bodyHash
  owns : db.Owns arrival.externalRequestId arrival.processId

structure InboxRow.Repeated (existing : InboxRow) (bodyHash : String) (reply : Envelope) : Prop where
  duplicate : (∃ result, reply = .ok "DUPLICATE" result) ↔ existing.bodyHash = bodyHash
  conflict : (∃ message, reply = .error "idempotency.conflict" message) ↔
    existing.bodyHash ≠ bodyHash

/-- A call that passes the checks is answered by the message stored under its id: its own, or the
one that was there first. -/
def Db.Judges (db : Db) (context : Context) (payload : Json) (reply : Envelope) : Prop :=
  ∀ bodyHash externalRequestId, Receivable context payload bodyHash →
    payload.text? "externalRequestId" = some externalRequestId →
    (Table.lookup ExternalRequest.id externalRequestId
      db.delivery.externalRequests).isSome = true →
    ∃ existing, db.message? (payload.text? "messageId") = some existing ∧
      ((∃ result, reply = .ok "RECEIVED" result) ∧ existing.bodyHash = bodyHash ∨
        existing.Repeated bodyHash reply)

def AcceptStage.Reads (db : Db) (context : Context) (payload : Json) : AcceptStage → Prop
  | .called | .ended (.raised _) => True
  | .storing arrival => arrival.Read db context payload
  | .referringExternal arrival _ | .referringProcess arrival _ | .recording arrival _
  | .confirming arrival .. | .releasing arrival .. | .committing arrival .. =>
      arrival.Read db context payload ∧ db.message? (some arrival.messageId) = none
  | .ended (.replied reply) => db.Judges context payload reply ∧
      ∀ result, reply = .ok "RECEIVED" result →
        (db.message? (payload.text? "messageId")).isSome = true

def DeliveryParty.Reads (db : Db) : DeliveryParty → Prop
  | .accepting context payload stage => stage.Reads db context payload
  | .idle | .reporting .. => True

theorem duplicateReply_repeated (existing : InboxRow) (bodyHash conflict : String)
    (messageId externalRequestId : Option String) :
    existing.Repeated bodyHash
      (duplicateReply existing bodyHash messageId externalRequestId conflict) := by
  by_cases same : existing.bodyHash = bodyHash
  · rw [duplicateReply, if_pos same]
    exact ⟨iff_of_true ⟨_, rfl⟩ same, iff_of_false (by simp) (not_not.mpr same)⟩
  · rw [duplicateReply, if_neg same]
    exact ⟨iff_of_false (by simp) same, iff_of_true ⟨_, rfl⟩ same⟩

section Judged

variable {db later : Db} {context : Context} {payload : Json}

theorem Receivable.unique {left right : String} (first : Receivable context payload left)
    (second : Receivable context payload right) : left = right :=
  Option.some.inj (first.hashed.symm.trans second.hashed)

theorem judges_of_answered {reply : Envelope}
    (answered : checkReceipt db context payload = .ok (.answered reply)) :
    db.Judges context payload reply ∧ ∀ result, reply ≠ .ok "RECEIVED" result := by
  constructor
  · intro bodyHash externalRequestId receivable named known
    obtain ⟨external, found⟩ := Option.isSome_iff_exists.mp known
    rw [checkReceipt_of_receivable receivable (by rw [named]; exact found)] at answered
    obtain ⟨existing, seen, rfl⟩ := readArrival_answered answered
    exact ⟨existing, seen, .inr (duplicateReply_repeated ..)⟩
  · rintro result rfl
    obtain ⟨_, _, refused⟩ | ⟨_, _, _, _, read⟩ := checkReceipt_cases answered
    · cases refused
    · obtain ⟨existing, _, same⟩ := readArrival_answered read
      exact duplicateReply_ne result same.symm

theorem takenReply_ne (result : Json) : takenReply db context payload ≠ .ok "RECEIVED" result := by
  unfold takenReply
  split
  · exact duplicateReply_ne result
  · exact nofun

theorem judges_takenReply {existing : InboxRow}
    (seen : db.message? (payload.text? "messageId") = some existing) :
    db.Judges context payload (takenReply db context payload) := by
  intro bodyHash externalRequestId receivable _ _
  refine ⟨existing, seen, .inr ?_⟩
  simp only [takenReply, seen, receivable.hashed]
  exact duplicateReply_repeated ..

theorem Db.Judges.kept {reply : Envelope} (judges : db.Judges context payload reply)
    (same : db.SameRequests later)
    (kept : ∀ id row, db.message? id = some row → later.message? id = some row) :
    later.Judges context payload reply := by
  intro bodyHash externalRequestId receivable named known
  obtain ⟨existing, seen, answer⟩ :=
    judges bodyHash externalRequestId receivable named (by rw [← same.known]; exact known)
  exact ⟨existing, kept _ _ seen, answer⟩

theorem Arrival.Read.kept {arrival : Arrival} (read : arrival.Read db context payload)
    (same : db.SameRequests later) : arrival.Read later context payload :=
  ⟨read.messageId, read.hashed, read.owns.same same⟩

theorem read_of_arrived {arrival : Arrival}
    (arrived : checkReceipt db context payload = .ok (.arrived arrival)) :
    arrival.Read db context payload ∧ db.message? (some arrival.messageId) = none := by
  obtain ⟨_, _, refused⟩ | ⟨bodyHash, external, receivable, looked, read⟩ :=
    checkReceipt_cases arrived
  · cases refused
  obtain ⟨unknown, messageId, pinned, sameExternal, sameHash, _⟩ := readArrival_arrived read
  obtain ⟨externalRequestId, named, found⟩ := Option.bind_eq_some_iff.mp looked
  obtain ⟨operation, located, owner⟩ := Option.bind_eq_some_iff.mp pinned
  obtain ⟨operationMember, operationId⟩ := Table.lookup_mem located
  refine ⟨⟨messageId, sameHash ▸ receivable.hashed, ?_⟩, unknown⟩
  exact ⟨external, (Table.lookup_mem found).1, sameExternal.symm, operation, operationMember,
    operationId, owner⟩

end Judged

/-! Any number of calls, taking turns. -/

def DeliveryParty.received? : DeliveryParty → Option String
  | .accepting _ payload (.ended (.replied (.ok "RECEIVED" _))) => payload.text? "messageId"
  | _ => none

structure DeliveryServer.Files (server : DeliveryServer) : Prop where
  sound : DeliveryServer.Sound server
  filing : server.shared.Filing
  reads : ∀ index, (server.party index).Reads server.shared
  once : ∀ left right, left ≠ right → ∀ messageId,
    (server.party left).received? = some messageId → (server.party right).received? ≠ some messageId

section Turns

variable {server : DeliveryServer}

theorem message?_append {db later : Db} {row : InboxRow}
    (inbox : later.delivery.inbox = db.delivery.inbox ++ [row])
    (fresh : db.message? (some row.messageId) = none) :
    later.message? (some row.messageId) = some row ∧
      (∀ id found, db.message? id = some found → later.message? id = some found) ∧
      ∀ id, id ≠ row.messageId → later.message? (some id) = db.message? (some id) := by
  have appended : ∀ id, later.message? (some id) =
      (db.message? (some id)).or (Table.lookup InboxRow.messageId id [row]) := by
    intro id
    simp only [Db.message?, Option.bind_some, inbox, Table.lookup_append]
  refine ⟨?_, ?_, ?_⟩
  · rw [appended, fresh]
    simp [Table.lookup]
  · intro id found seen
    cases id with
    | none => cases seen
    | some id => rw [appended, seen, Option.some_or]
  · intro id different
    rw [appended]
    simp [Table.lookup, different.symm]

theorem DeliveryParty.received?_other {context : Context} {payload : Json} {reply : Envelope}
    (other : ∀ result, reply ≠ .ok "RECEIVED" result) :
    (DeliveryParty.accepting context payload (.ended (.replied reply))).received? = none := by
  unfold received?
  split
  · rename_i same
    cases same
    exact absurd rfl (other _)
  · rfl

theorem DeliveryParty.Reads.received {db : Db} {party : DeliveryParty} (reads : party.Reads db)
    {messageId : String} (received : party.received? = some messageId) :
    (db.message? (some messageId)).isSome = true := by
  unfold received? at received
  split at received
  · rename_i context payload result
    have stored := reads.2 result rfl
    rw [received] at stored
    exact stored
  · cases received

/-- What a call has read stays true while others take their turns: a message of its id would need
the lock it holds. -/
theorem DeliveryParty.Reads.keep {db : Db} {party acting : DeliveryParty} (reads : party.Reads db)
    (apart : ∀ messageId, ⟨.message messageId, .update⟩ ∈ party.held →
      ⟨.message messageId, .update⟩ ∉ acting.held)
    (actingReads : acting.Reads db) : party.Reads (acting.perform db).1 := by
  have same := acting.perform_requests db
  have messages : (∀ id row, db.message? id = some row →
        (acting.perform db).1.message? id = some row) ∧
      ∀ id, ⟨.message id, .update⟩ ∈ party.held → db.message? (some id) = none →
        (acting.perform db).1.message? (some id) = none := by
    obtain ⟨inbox, _⟩ | ⟨context, payload, arrival, outcome, storedAt, recordedAt, released, rfl⟩ :=
      acting.perform_mail db
    · have unchanged : ∀ id, (acting.perform db).1.message? id = db.message? id := by
        intro id
        simp only [Db.message?, inbox]
      exact ⟨fun id row seen => (unchanged id).trans seen,
        fun id _ absent => (unchanged (some id)).trans absent⟩
    · obtain ⟨_, kept, others⟩ := @message?_append db ((DeliveryParty.accepting context payload
        (.committing arrival outcome storedAt recordedAt released)).perform db).1
        ⟨arrival.messageId, arrival.externalRequestId, arrival.processId, "payment.receipt",
          arrival.bodyHash, arrival.body, .received, storedAt⟩ rfl actingReads.2
      refine ⟨kept, fun id locked absent => ?_⟩
      refine (others id ?_).trans absent
      rintro rfl
      exact apart _ locked (by simp [held, AcceptStage.held])
  cases party with
  | idle | reporting => trivial
  | accepting context payload stage =>
      cases stage with
      | called => trivial
      | storing arrival => exact Arrival.Read.kept reads same
      | referringExternal arrival | referringProcess arrival | recording arrival
        | confirming arrival | releasing arrival | committing arrival =>
          exact ⟨reads.1.kept same, messages.2 _ (by simp [held, AcceptStage.held]) reads.2⟩
      | ended ending =>
          cases ending with
          | raised => trivial
          | replied reply =>
              refine ⟨Db.Judges.kept reads.1 same messages.1, fun result received => ?_⟩
              obtain ⟨row, seen⟩ := Option.isSome_iff_exists.mp (reads.2 result received)
              rw [messages.1 _ _ seen, Option.isSome_some]

theorem DeliveryParty.Reads.perform {db : Db} {party : DeliveryParty} (filing : db.Filing)
    (reads : party.Reads db) : (party.perform db).2.Reads (party.perform db).1 := by
  have keeps : ∀ {later : Db} {context payload arrival}, later.delivery = db.delivery →
      later.payment = db.payment → Arrival.Read arrival db context payload →
        db.message? (some arrival.messageId) = none →
          Arrival.Read arrival later context payload ∧
            later.message? (some arrival.messageId) = none := by
    intro later context payload arrival delivery payment read fresh
    exact ⟨read.kept (.of_delivery delivery payment), by simpa only [Db.message?, delivery] using fresh⟩
  cases party with
  | idle | reporting => trivial
  | accepting context payload stage =>
      cases stage with
      | called =>
          change AcceptStage.Reads (AcceptStage.perform db context payload .called).1 context payload
            (AcceptStage.perform db context payload .called).2
          simp only [AcceptStage.perform]
          split
          · trivial
          · rename_i reply checked
            obtain ⟨judges, other⟩ := judges_of_answered checked
            exact ⟨judges, fun result same => absurd same (other result)⟩
          · rename_i arrival arrived
            exact (read_of_arrived arrived).1
      | storing arrival =>
          change AcceptStage.Reads (AcceptStage.perform db context payload (.storing arrival)).1
            context payload (AcceptStage.perform db context payload (.storing arrival)).2
          have read : Arrival.Read arrival db context payload := reads
          simp only [AcceptStage.perform]
          split
          · rename_i taken
            have seen : (Table.lookup InboxRow.messageId arrival.messageId
                db.delivery.inbox).isSome = true := by
              rw [Table.lookup_isSome]
              simpa using taken
            obtain ⟨existing, found⟩ := Option.isSome_iff_exists.mp seen
            refine ⟨@judges_takenReply db context payload existing ?_,
              fun result same => absurd same (takenReply_ne result)⟩
            rw [read.messageId]
            exact found
          · rename_i fresh
            refine keeps rfl rfl read ?_
            exact Table.lookup_eq_none.mpr (by simpa using fresh)
      | referringExternal arrival | referringProcess arrival | confirming arrival
        | releasing arrival => exact keeps rfl rfl reads.1 reads.2
      | recording arrival storedAt =>
          change AcceptStage.Reads
            (AcceptStage.perform db context payload (.recording arrival storedAt)).1 context payload
              (AcceptStage.perform db context payload (.recording arrival storedAt)).2
          simp only [AcceptStage.perform]
          split
          · trivial
          split
          · rename_i taken
            -- the two tables run in parallel, so the inbox would have it too
            obtain ⟨receipt, member, sameId⟩ := List.any_eq_true.mp taken
            have inside := List.mem_map_of_mem (f := Receipt.message) member
            rw [← filing.paired] at inside
            obtain ⟨row, rowMember, sameMessage⟩ := List.mem_map.mp inside
            have absent := Table.lookup_eq_none.mp reads.2 row rowMember
            have sameIds : row.messageId = receipt.messageId := (Message.mk.inj sameMessage).1
            exact absurd (sameIds.trans (of_decide_eq_true sameId)) absent
          · exact keeps rfl rfl reads.1 reads.2
      | committing arrival outcome storedAt recordedAt released =>
          obtain ⟨own, _, _⟩ := @message?_append db ((DeliveryParty.accepting context payload
            (.committing arrival outcome storedAt recordedAt released)).perform db).1
            ⟨arrival.messageId, arrival.externalRequestId, arrival.processId, "payment.receipt",
              arrival.bodyHash, arrival.body, .received, storedAt⟩ rfl reads.2
          have read := reads.1
          rw [← read.messageId] at own
          refine ⟨fun bodyHash _ receivable _ _ => ⟨_, own, .inl ⟨⟨_, rfl⟩, ?_⟩⟩, fun _ _ => ?_⟩
          · exact Option.some.inj (read.hashed.symm.trans receivable.hashed)
          · rw [own, Option.isSome_some]
      | ended ending => exact reads

theorem DeliveryParty.Reads.filing {db : Db} {party : DeliveryParty} (reads : party.Reads db)
    (filing : db.Filing) : (party.perform db).1.Filing := by
  have same := party.perform_requests db
  obtain ⟨inbox, receipts⟩ |
    ⟨context, payload, arrival, outcome, storedAt, recordedAt, released, rfl⟩ := party.perform_mail db
  · exact filing.of_mail (by simp only [Db.mail, inbox, receipts]) fun owns => owns.same same
  · exact filing.filed rfl rfl rfl reads.2 reads.1.owns fun owns => owns.same same

/-- A message is received by the call that commits it, and by no other. -/
theorem DeliveryParty.received?_perform {db : Db} {party : DeliveryParty} {messageId : String}
    (reads : party.Reads db) (received : (party.perform db).2.received? = some messageId) :
    party.received? = some messageId ∨ db.message? (some messageId) = none := by
  cases party with
  | idle => cases received
  | reporting => cases received
  | accepting context payload stage =>
      cases stage with
      | ended ending => exact .inl received
      | committing arrival outcome storedAt recordedAt released =>
          have named : payload.text? "messageId" = some messageId := received
          rw [reads.1.messageId, Option.some.injEq] at named
          exact .inr (named ▸ reads.2)
      | referringExternal | referringProcess | confirming | releasing => cases received
      | called =>
          simp only [perform, AcceptStage.perform] at received
          split at received
          · cases received
          · rename_i reply checked
            rw [received?_other (judges_of_answered checked).2] at received
            cases received
          · cases received
      | storing arrival =>
          simp only [perform, AcceptStage.perform] at received
          split at received
          · rw [received?_other takenReply_ne] at received
            cases received
          · cases received
      | recording arrival storedAt =>
          simp only [perform, AcceptStage.perform] at received
          split at received
          · cases received
          split at received
          · rw [received?_other takenReply_ne] at received
            cases received
          · cases received

theorem DeliveryServer.Files.turn (files : DeliveryServer.Files server) (index : Nat) :
    DeliveryServer.Files (deliveryProgram.turn server index) := by
  have sound := files.sound.turn index
  unfold Program.turn at sound ⊢
  split
  · rename_i granted
    rw [if_pos granted] at sound
    have own := files.reads index
    have kept : ∀ other, other ≠ index →
        (server.party other).Reads ((server.party index).perform server.shared).1 := by
      intro other different
      refine (files.reads other).keep ?_ own
      intro messageId left right
      have clash := Program.held_compatible files.sound.accounted files.sound.compatible different
        left right rfl
      cases clash
    have fresh : ∀ other, other ≠ index → ∀ messageId,
        ((server.party index).perform server.shared).2.received? = some messageId →
          (server.party other).received? ≠ some messageId := by
      intro other different messageId received repeated
      rcases DeliveryParty.received?_perform own received with before | absent
      · exact files.once index other different.symm messageId before repeated
      · have stored := (files.reads other).received repeated
        rw [absent] at stored
        cases stored
    refine ⟨sound, own.filing files.filing, ?_, ?_⟩
    · intro other
      by_cases same : other = index
      · subst same
        rw [Program.proceed_own]
        exact own.perform files.filing
      · rw [Program.proceed_other _ _ _ same]
        exact kept other same
    · intro left right different messageId
      by_cases isLeft : left = index
      · subst isLeft
        rw [Program.proceed_own, Program.proceed_other _ _ _ different.symm]
        exact fresh right different.symm messageId
      · by_cases isRight : right = index
        · subst isRight
          rw [Program.proceed_own, Program.proceed_other _ _ _ isLeft]
          exact fun before after => fresh left isLeft messageId after before
        · rw [Program.proceed_other _ _ _ isLeft, Program.proceed_other _ _ _ isRight]
          exact files.once left right different messageId
  · exact files

theorem DeliveryServer.Files.run (files : DeliveryServer.Files server) (turns : List Nat) :
    DeliveryServer.Files (Runs.run deliveryProgram.turn server turns) :=
  Runs.run_invariant DeliveryServer.Files (fun _ index files => files.turn index) turns server files

theorem DeliveryServer.start_files (config : Config) (clock : Nat → Time)
    (digest : String → String) (history : List Call) (calls : Nat → DeliveryCall) :
    DeliveryServer.Files
      (DeliveryServer.start (reached config clock digest history).db calls) where
  sound := DeliveryServer.start_sound (reached_steady history).ledger
    (reached_lattice config clock digest history) calls
  filing := reached_filing config clock digest history
  reads := by
    intro index
    change (calls index).party.Reads _
    cases calls index <;> trivial
  once := by
    intro left right _ messageId received
    change (calls left).party.received? = some messageId at received
    cases called : calls left <;> (rw [called] at received; cases received)

end Turns

structure Db.StoresOnce (db : Db) (messageId : String) : Prop where
  inbox : (db.delivery.inbox.filter fun row => row.messageId = messageId).length ≤ 1
  receipts : (db.delivery.receipts.filter fun row => row.messageId = messageId).length =
    (db.delivery.inbox.filter fun row => row.messageId = messageId).length
  agree : ∀ row ∈ db.delivery.inbox, ∀ receipt ∈ db.delivery.receipts,
    row.messageId = messageId → receipt.messageId = messageId →
      receipt.bodyHash = row.bodyHash ∧ receipt.externalRequestId = row.externalRequestId ∧
        receipt.body = row.payload
  process : ∀ row ∈ db.delivery.inbox, row.messageId = messageId →
    db.Owns row.externalRequestId row.processId

theorem Db.Filing.storesOnce {db : Db} (filing : db.Filing) (messageId : String) :
    db.StoresOnce messageId where
  inbox := by
    cases found : db.delivery.inbox.filter fun row => row.messageId = messageId with
    | nil => exact Nat.zero_le 1
    | cons row rest =>
        have inside : row ∈ db.delivery.inbox.filter fun row => row.messageId = messageId := by
          rw [found]
          exact List.mem_cons_self
        obtain ⟨member, same⟩ := List.mem_filter.mp inside
        have alone := Table.filter_key filing.unique member
        rw [of_decide_eq_true same, found] at alone
        rw [alone, List.length_singleton]
  receipts := by
    have inbox : (db.delivery.inbox.filter fun row => row.messageId = messageId).map
        InboxRow.message = (db.delivery.inbox.map InboxRow.message).filter
          fun message => message.messageId = messageId := by
      rw [List.filter_map]
      rfl
    have receipts : (db.delivery.receipts.filter fun row => row.messageId = messageId).map
        Receipt.message = (db.delivery.receipts.map Receipt.message).filter
          fun message => message.messageId = messageId := by
      rw [List.filter_map]
      rfl
    have lengths := congrArg List.length (inbox.trans (filing.paired ▸ receipts.symm))
    rw [List.length_map, List.length_map] at lengths
    exact lengths.symm
  agree := by
    intro row rowMember receipt receiptMember rowId receiptId
    have inside := List.mem_map_of_mem (f := Receipt.message) receiptMember
    rw [← filing.paired] at inside
    obtain ⟨other, otherMember, same⟩ := List.mem_map.mp inside
    simp only [InboxRow.message, Receipt.message, Message.mk.injEq] at same
    obtain ⟨id, external, hash, body⟩ := same
    obtain rfl := Table.key_unique filing.unique otherMember rowMember
      (id.trans (receiptId.trans rowId.symm))
    exact ⟨hash.symm, external.symm, body.symm⟩
  process := fun row member _ => filing.owned row member

/-- Of the messages with one id the first is stored, in both tables at once, and no call of
another does anything but compare its hash. -/
theorem receipts_first_write_wins (config : Config) (clock : Nat → Time)
    (digest : String → String) (history : List Call) (calls : Nat → DeliveryCall)
    (turns : List Nat) :
    let server := Runs.run deliveryProgram.turn
      (DeliveryServer.start (reached config clock digest history).db calls) turns
    (∀ messageId, server.shared.StoresOnce messageId) ∧
    (∀ left right, left ≠ right → ∀ messageId, (server.party left).received? = some messageId →
      (server.party right).received? ≠ some messageId) ∧
    ∀ index context payload stage, server.party index = .accepting context payload stage →
      let next := deliveryProgram.turn server index
      (next.shared.delivery = server.shared.delivery ∨
        ∃ result, next.party index =
          .accepting context payload (.ended (.replied (.ok "RECEIVED" result)))) ∧
      ∀ bodyHash externalRequestId, Receivable context payload bodyHash →
        payload.text? "externalRequestId" = some externalRequestId →
        (Table.lookup ExternalRequest.id externalRequestId
          server.shared.delivery.externalRequests).isSome = true →
        (∀ existing, stage = .called →
          server.shared.message? (payload.text? "messageId") = some existing →
            ∃ reply, next.party index = .accepting context payload (.ended (.replied reply)) ∧
              existing.Repeated bodyHash reply) ∧
        ∀ reply, stage = .ended (.replied reply) →
          ∃ existing, server.shared.message? (payload.text? "messageId") = some existing ∧
            ((∃ result, reply = .ok "RECEIVED" result) ∧ existing.bodyHash = bodyHash ∨
              existing.Repeated bodyHash reply) := by
  intro server
  have files : DeliveryServer.Files server :=
    (DeliveryServer.start_files config clock digest history calls).run turns
  refine ⟨files.filing.storesOnce, files.once, ?_⟩
  intro index context payload stage party next
  have acted : next = server ∨ next = deliveryProgram.proceed server index := by
    change deliveryProgram.turn server index = _ ∨ deliveryProgram.turn server index = _
    unfold Program.turn
    split
    · exact .inr rfl
    · exact .inl rfl
  have own : (deliveryProgram.proceed server index).party index =
      .accepting context payload (stage.perform server.shared context payload).2 := by
    rw [Program.proceed_own, party]
    rfl
  constructor
  · rcases acted with same | moved
    · rw [same]
      exact .inl rfl
    · rw [moved, own, Program.proceed_shared, party]
      obtain ⟨delivery, _⟩ | ⟨arrival, outcome, storedAt, recordedAt, released, rfl⟩ :=
        stage.perform_cases server.shared context payload
      · exact .inl delivery
      · exact .inr ⟨_, rfl⟩
  intro bodyHash externalRequestId receivable named known
  constructor
  · rintro existing rfl seen
    obtain ⟨external, found⟩ := Option.isSome_iff_exists.mp known
    have moved : next = deliveryProgram.proceed server index := by
      change deliveryProgram.turn server index = _
      unfold Program.turn
      rw [Program.next, party]
      rfl
    have checked : checkReceipt server.shared context payload = .ok (.answered
        (duplicateReply existing bodyHash (payload.text? "messageId")
          (payload.text? "externalRequestId") "messageId is already used with a different body")) := by
      rw [checkReceipt_of_receivable receivable (by rw [named]; exact found)]
      simp only [readArrival, seen]
    rw [moved, own]
    simp only [AcceptStage.perform, checked]
    exact ⟨_, rfl, duplicateReply_repeated ..⟩
  · rintro reply rfl
    have reads := files.reads index
    rw [party] at reads
    exact reads.1 bodyHash externalRequestId receivable named known

/-- A repeated message whose signature was not verified is neither a duplicate nor a conflict. -/
theorem unsigned_repeat_refused :
    ∃ stored result, receiptAcceptV1 (seeded Seed.prepared).db Seed.receiptContext
        (Seed.receiptPayload "first" "COMPLETED") = .ok (stored, .ok "RECEIVED" result) ∧
      receiptAcceptV1 stored { Seed.receiptContext with signatureVerified := some false }
        (Seed.receiptPayload "first" "COMPLETED") =
          .ok (stored, .error "receipt.signature_required" "signature is required") := by
  have received : (receiptAcceptV1 (seeded Seed.prepared).db Seed.receiptContext
      (Seed.receiptPayload "first" "COMPLETED")).toOption.map Prod.snd =
        some (.ok "RECEIVED" (receiptResult (some "first") (some (uuidText 10)) "RECEIVED")) := by
    decide +kernel
  cases called : receiptAcceptV1 (seeded Seed.prepared).db Seed.receiptContext
      (Seed.receiptPayload "first" "COMPLETED") with
  | error failure =>
      rw [called] at received
      cases received
  | ok done =>
      obtain ⟨stored, envelope⟩ := done
      rw [called] at received
      cases received
      exact ⟨stored, _, rfl, rfl⟩

end PaymentWorkflow
