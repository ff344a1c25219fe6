import PaymentWorkflow.EngineKept
import PaymentWorkflow.SystemCore

/-!
The writes of the payment and delivery functions as moves of their own, and every committed
call as a chain of moves.
-/

namespace PaymentWorkflow

inductive Closes (db : Db) (operation : Operation) :
    Target → OperationStatus → OperationEventType → Prop
  | approved (decided : db.decided operation .approved = true) :
      Closes db operation .approveV1 .completed .completed
  | completedByReceipt (execution : operation.operationKind = .paymentExecution)
      (applied : db.receiptApplied operation .completed = true) :
      Closes db operation .completeV1 .completed .completed
  | completedByDecision (approval : operation.operationKind ≠ .paymentExecution)
      (decided : db.decided operation .approved = true) :
      Closes db operation .completeV1 .completed .completed
  | rejectedByReceipt (execution : operation.operationKind = .paymentExecution)
      (applied : db.receiptApplied operation .rejected = true) :
      Closes db operation .rejectV1 .rejected .rejected
  | rejectedByDecision (approval : operation.operationKind ≠ .paymentExecution)
      (decided : db.decided operation .rejected = true) :
      Closes db operation .rejectV1 .rejected .rejected

def Db.writeStatus (db : Db) (operationId : Nat) (status : OperationStatus)
    (eventType : OperationEventType) (payloadHash : String) (processId : Option Nat) : Db :=
  (db.updateOperation operationId fun row => { row with
    status, processId := processId.or row.processId }).insertOperationEvent operationId eventType
      payloadHash

inductive CloseMove (target : Target) (operation : Operation) (db : Db) : Db → Prop
  | closed {status : OperationStatus} {eventType : OperationEventType} (payloadHash : String)
      (member : operation ∈ db.payment.operations)
      (closes : Closes db operation target status eventType)
      (changes : operation.status ≠ status) :
      CloseMove target operation db (db.writeStatus operation.id status eventType payloadHash none)

structure Db.StartedFor (db : Db) (operation : Operation) (process : Process) : Prop where
  key : process.businessKey = uuidText operation.id
  data : process.data = processData operation
  bound : ∃ binding, db.config.flowBindings.find? (fun row =>
    row.operationKind = operation.operationKind) = some binding ∧
      process.flowName = binding.flowName

inductive OutsideMove : Db → Db → Prop
  | ticked {db : Db} (count : Nat) : OutsideMove db { db with ticks := db.ticks + count }
  | requested {db : Db} {requestId principal currency : String} {operationKind : OperationKind}
      {amount : Int} (payloadHash : String) (named : requestId ≠ "") (inRange : isOperationAmount amount = true)
      (fresh : (db.payment.operations.any fun row =>
        row.principal = principal ∧ row.requestId = requestId) = false) :
      OutsideMove db ((db.insertOperation requestId principal operationKind amount
        currency).insertOperationEvent db.nextId .created payloadHash)
  | submitted {db : Db} {operation : Operation} (processId : Nat) (payloadHash : String)
      (member : operation ∈ db.payment.operations) (created : operation.status = .created)
      (unpinned : operation.processId = none)
      (once : (db.payment.operationEvents.any fun row =>
        row.operationId = operation.id ∧ row.eventType = .submitted) = false)
      (known : ∃ process ∈ db.workflow.processes, process.id = processId ∧
        db.StartedFor operation process) :
      OutsideMove db (db.writeStatus operation.id .processing .submitted payloadHash (some processId))
  | prepared {db : Db} {operation : Operation} (correlationId : Nat)
      (member : operation ∈ db.payment.operations) (pinned : operation.processId ≠ none)
      (absent : db.externalOf? operation.id = none)
      (fresh : (db.delivery.externalRequests.any fun row => row.id = uuidText db.nextId) = false) :
      OutsideMove db ((db.insertExternal operation correlationId).insertOutbox
        (uuidText db.nextId) correlationId)
  | requeued {db : Db} {external : ExternalRequest} (correlationId : Nat)
      (member : external ∈ db.delivery.externalRequests)
      (absent : (db.delivery.outbox.any fun row => row.externalRequestId = external.id) = false) :
      OutsideMove db (db.insertOutbox external.id correlationId)
  | limitDecided {db : Db} {operation : Operation} {processId : Nat} {step : StepInstance}
      (member : operation ∈ db.payment.operations) (pinned : operation.processId = some processId)
      (within : operation.amount ≤ courseLimit) (running : db.limitStep? processId = some step)
      (undecided : (db.payment.decisions.any fun row => row.stepInstanceId = step.id) = false) :
      OutsideMove db (db.insertDecision processId step.id .limitRule none none .approved
        (some "course-limit-v1"))
  | outboxLeased {db : Db} {picked : List OutboxRow} (owner : String)
      (unique : (picked.map OutboxRow.id).Nodup)
      (claimable : ∀ row ∈ picked, row ∈ db.delivery.outbox ∧
        (row.state = .pending ∨ row.state = .retryWait ∨ row.state = .leased)) :
      OutsideMove db (db.leaseOutbox owner picked)
  | outboxDelivered {db : Db} {row : OutboxRow} {owner : Option String}
      {leaseVersion : Option Int} (member : row ∈ db.delivery.outbox)
      (held : row.heldBy row.id owner leaseVersion = true) :
      OutsideMove db ((db.updateOutbox (fun other => other.heldBy row.id owner leaseVersion)
        fun other => { other with
          state := .delivered, leaseOwner := none, leaseUntil := none }).updateExternal
            (fun external => external.id = row.externalRequestId ∧ external.state = .created)
            fun external => { external with state := .sent })
  | outboxRetried {db : Db} {row : OutboxRow} {owner errorCode : Option String}
      {leaseVersion : Option Int} {policy : OutboxPolicy} (nextAttemptAt : Time)
      (member : row ∈ db.delivery.outbox) (held : row.heldBy row.id owner leaseVersion = true)
      (configured : db.config.outboxPolicy = some policy)
      (within : (row.attemptCount : Int) < policy.maxAttempts) :
      OutsideMove db (db.updateOutbox (fun other => other.heldBy row.id owner leaseVersion)
        fun other => { other with
          state := .retryWait, leaseOwner := none, leaseUntil := none
          nextAttemptAt := some nextAttemptAt, lastErrorCode := errorCode })
  | outboxDied {db : Db} {row : OutboxRow} {owner errorCode : Option String}
      {leaseVersion : Option Int} (member : row ∈ db.delivery.outbox)
      (held : row.heldBy row.id owner leaseVersion = true) :
      OutsideMove db (db.updateOutbox (fun other => other.heldBy row.id owner leaseVersion)
        fun other => { other with
          state := .dead, leaseOwner := none, leaseUntil := none, lastErrorCode := errorCode })
  | received {db : Db} {external : ExternalRequest} {messageId bodyHash : String}
      {processId : Nat} {operation : Operation} (outcome : ReceiptOutcome) (body : Json)
      (member : external ∈ db.delivery.externalRequests)
      (owner : db.payment.operation? external.operationId = some operation)
      (pinned : operation.processId = some processId)
      (freshMessage : db.message? (some messageId) = none)
      (freshReceipt : (db.delivery.receipts.any fun row => row.messageId = messageId) = false) :
      OutsideMove db ((db.insertReceipt messageId external.id processId outcome bodyHash
        body).confirmDelivery external.id)
  | dispatched {db : Db} (dispatch : Dispatch)
      (fresh : (db.dispatches.any fun row => row.correlationId = dispatch.correlationId) = false) :
      OutsideMove db (db.insertDispatch dispatch)

abbrev OutsideMoves : Db → Db → Prop := Relation.ReflTransGen OutsideMove

abbrev OtherMove (db later : Db) : Prop :=
  (∃ processId, Db.Reaches processId db later) ∨ OutsideMove db later

abbrev OtherMoves : Db → Db → Prop := Relation.ReflTransGen OtherMove

abbrev SystemMove (db later : Db) : Prop :=
  OtherMove db later ∨ ∃ target operation, CloseMove target operation db later

abbrev SystemMoves : Db → Db → Prop := Relation.ReflTransGen SystemMove

namespace OutsideMove

variable {db later : Db}

theorem workflow_eq (move : OutsideMove db later) : later.workflow = db.workflow := by
  cases move <;> rfl

theorem config_eq (move : OutsideMove db later) : later.config = db.config := by
  cases move <;> rfl

theorem digest_eq (move : OutsideMove db later) : later.digest = db.digest := by
  cases move <;> rfl

theorem nextId_le (move : OutsideMove db later) : db.nextId ≤ later.nextId := by
  cases move with
  | requested | limitDecided | requeued => exact Nat.le_succ _
  | prepared => exact Nat.le_add_right _ 2
  | _ => exact Nat.le_refl _

theorem calm (move : OutsideMove db later) (calm : db.Calm) : later.Calm := by
  have view : ∀ processId, later.view processId = db.view processId := by
    intro processId
    simp only [Db.view, move.workflow_eq]
  have fixed : later.fixed = db.fixed := by simp only [Db.fixed, move.workflow_eq]
  refine ⟨⟨calm.sound.rows.of_fixed move.config_eq fixed move.nextId_le, ?_⟩, ?_⟩
  · intro processId
    rw [view]
    exact calm.sound.settled processId
  · intro processId
    rw [view, move.config_eq]
    exact calm.quiet processId

end OutsideMove

namespace CloseMove

variable {target : Target} {operation : Operation} {db later : Db}

theorem workflow_eq (move : CloseMove target operation db later) :
    later.workflow = db.workflow := by
  cases move
  rfl

theorem delivery_eq (move : CloseMove target operation db later) :
    later.delivery = db.delivery := by
  cases move
  rfl

theorem config_eq (move : CloseMove target operation db later) : later.config = db.config := by
  cases move
  rfl

theorem calm (move : CloseMove target operation db later) (calm : db.Calm) : later.Calm := by
  cases move
  exact ⟨⟨calm.sound.rows, calm.sound.settled⟩, calm.quiet⟩

end CloseMove

theorem OutsideMoves.workflow_eq {db later : Db} (moves : OutsideMoves db later) :
    later.workflow = db.workflow := by
  induction moves with
  | refl => rfl
  | tail _ move ih => rw [move.workflow_eq, ih]

theorem OutsideMoves.nextId_le {db later : Db} (moves : OutsideMoves db later) :
    db.nextId ≤ later.nextId := by
  induction moves with
  | refl => exact Nat.le_refl _
  | tail _ move ih => exact Nat.le_trans ih move.nextId_le

structure Db.Ledger (db : Db) : Prop where
  operationIds : (db.payment.operations.map Operation.id).Nodup
  operationBound : ∀ row ∈ db.payment.operations, row.id < db.nextId
  outboxIds : (db.delivery.outbox.map OutboxRow.id).Nodup
  outboxBound : ∀ row ∈ db.delivery.outbox, row.id < db.nextId

namespace Db

variable {db later : Db}

theorem Ledger.mono (ledger : db.Ledger) (operations : later.payment.operations.map Operation.id =
      db.payment.operations.map Operation.id)
    (outbox : later.delivery.outbox.map OutboxRow.id = db.delivery.outbox.map OutboxRow.id)
    (bound : db.nextId ≤ later.nextId) : later.Ledger := by
  refine ⟨operations ▸ ledger.operationIds, ?_, outbox ▸ ledger.outboxIds, ?_⟩
  · intro row member
    have key := List.mem_map_of_mem (f := Operation.id) member
    rw [operations] at key
    obtain ⟨old, oldMember, same⟩ := List.mem_map.mp key
    exact same ▸ Nat.lt_of_lt_of_le (ledger.operationBound old oldMember) bound
  · intro row member
    have key := List.mem_map_of_mem (f := OutboxRow.id) member
    rw [outbox] at key
    obtain ⟨old, oldMember, same⟩ := List.mem_map.mp key
    exact same ▸ Nat.lt_of_lt_of_le (ledger.outboxBound old oldMember) bound

theorem Ledger.of_engine {processId : Nat} (ledger : db.Ledger)
    (moves : EngineMoves processId db later) : later.Ledger :=
  ledger.mono (by rw [moves.operations_eq.1]) (by rw [moves.outbox_eq.2]) moves.nextId_le

theorem writeStatus_ledger (ledger : db.Ledger) (operationId : Nat) (status : OperationStatus)
    (eventType : OperationEventType) (payloadHash : String) (processId : Option Nat) :
    (db.writeStatus operationId status eventType payloadHash processId).Ledger := by
  refine ledger.mono ?_ rfl (Nat.le_refl _)
  show (Table.update _ _ db.payment.operations).map Operation.id = _
  rw [Table.map_update]
  exact fun _ => rfl

theorem updateOutbox_ledger (ledger : db.Ledger) {matched : OutboxRow → Bool}
    {change : OutboxRow → OutboxRow} (stable : ∀ row, (change row).id = row.id) :
    (db.updateOutbox matched change).Ledger :=
  ledger.mono rfl (Table.map_update OutboxRow.id _ _ stable _) (Nat.le_refl _)

theorem insertOutbox_ledger (ledger : db.Ledger) (externalRequestId : String)
    (correlationId : Nat) : (db.insertOutbox externalRequestId correlationId).Ledger := by
  refine ⟨ledger.operationIds, fun row member => Nat.lt_succ_of_lt
    (ledger.operationBound row member), Rows.fresh_append ledger.outboxIds ledger.outboxBound, ?_⟩
  intro row member
  rcases List.mem_append.mp member with old | new
  · exact Nat.lt_succ_of_lt (ledger.outboxBound row old)
  · simp only [List.mem_singleton] at new
    subst new
    exact Nat.lt_succ_self _

end Db

theorem OutsideMove.ledger {db later : Db} (move : OutsideMove db later) (ledger : db.Ledger) :
    later.Ledger := by
  cases move with
  | requested =>
      refine ⟨Rows.fresh_append ledger.operationIds ledger.operationBound, ?_, ledger.outboxIds,
        fun row member => Nat.lt_succ_of_lt (ledger.outboxBound row member)⟩
      intro row member
      rcases List.mem_append.mp member with old | new
      · exact Nat.lt_succ_of_lt (ledger.operationBound row old)
      · simp only [List.mem_singleton] at new
        subst new
        exact Nat.lt_succ_self _
  | submitted => exact Db.writeStatus_ledger ledger _ _ _ _ _
  | prepared =>
      exact @Db.insertOutbox_ledger (db.insertExternal _ _)
        (ledger.mono rfl rfl (Nat.le_succ _)) _ _
  | requeued => exact Db.insertOutbox_ledger ledger _ _
  | limitDecided => exact ledger.mono rfl rfl (Nat.le_succ _)
  | outboxLeased => exact Db.updateOutbox_ledger ledger fun _ => rfl
  | outboxDelivered =>
      refine Db.Ledger.mono (Db.updateOutbox_ledger ledger ?_) rfl rfl (Nat.le_refl _)
      exact fun _ => rfl
  | outboxRetried => exact Db.updateOutbox_ledger ledger fun _ => rfl
  | outboxDied => exact Db.updateOutbox_ledger ledger fun _ => rfl
  | received =>
      refine @Db.updateOutbox_ledger (Db.updateExternal (db.insertReceipt _ _ _ _ _ _) _ _)
        (ledger.mono rfl rfl (Nat.le_refl _)) _ _ ?_
      exact fun _ => rfl
  | _ => exact ledger.mono rfl rfl (Nat.le_refl _)

theorem CloseMove.ledger {target : Target} {operation : Operation} {db later : Db}
    (move : CloseMove target operation db later) (ledger : db.Ledger) : later.Ledger := by
  cases move
  exact Db.writeStatus_ledger ledger _ _ _ _ _

/-- What holds in every state of the system, whatever was called. -/
structure Db.Steady (db : Db) : Prop where
  calm : db.Calm
  ledger : db.Ledger

theorem SystemMove.steady {db later : Db} (move : SystemMove db later) (steady : db.Steady) :
    later.Steady := by
  rcases move with (⟨processId, reaches⟩ | outside) | ⟨target, operation, close⟩
  · exact ⟨reaches.calm steady.calm, steady.ledger.of_engine reaches.moves⟩
  · exact ⟨outside.calm steady.calm, outside.ledger steady.ledger⟩
  · exact ⟨close.calm steady.calm, close.ledger steady.ledger⟩

theorem SystemMove.config_eq {db later : Db} (move : SystemMove db later) :
    later.config = db.config := by
  rcases move with (⟨processId, reaches⟩ | outside) | ⟨target, operation, close⟩
  · exact reaches.moves.config_eq
  · exact outside.config_eq
  · exact close.config_eq

namespace OtherMoves

variable {db later : Db}

theorem of_steps (steps : db.Steps later) : OtherMoves db later :=
  Relation.ReflTransGen.mono (fun _ _ => Or.inl) _ _ steps

theorem of_reaches {processId : Nat} (reaches : Db.Reaches processId db later) :
    OtherMoves db later := .single (.inl ⟨processId, reaches⟩)

theorem of_outside (moves : OutsideMoves db later) : OtherMoves db later :=
  Relation.ReflTransGen.mono (fun _ _ => Or.inr) _ _ moves

theorem system (moves : OtherMoves db later) : SystemMoves db later :=
  Relation.ReflTransGen.mono (fun _ _ => Or.inl) _ _ moves

end OtherMoves

namespace SystemMoves

variable {db later : Db}

theorem steady (moves : SystemMoves db later) (steady : db.Steady) : later.Steady := by
  induction moves with
  | refl => exact steady
  | tail _ move ih => exact SystemMove.steady move ih

theorem config_eq (moves : SystemMoves db later) : later.config = db.config := by
  induction moves with
  | refl => rfl
  | tail _ move ih => rw [SystemMove.config_eq move, ih]

end SystemMoves

theorem SystemMove.kept {db later : Db} (move : SystemMove db later) (steady : db.Steady) :
    db.Kept later := by
  rcases move with (⟨processId, reaches⟩ | outside) | ⟨target, operation, close⟩
  · exact reaches.moves.kept steady.calm.sound
  · exact .of_eq (by simp only [Db.fixed, outside.workflow_eq])
  · exact .of_eq (by simp only [Db.fixed, close.workflow_eq])

theorem SystemMoves.kept {db later : Db} (moves : SystemMoves db later) (steady : db.Steady) :
    db.Kept later := by
  induction moves with
  | refl => exact .refl _
  | tail earlier move ih =>
      exact ih.trans (SystemMove.kept move (SystemMoves.steady earlier steady))

end PaymentWorkflow
