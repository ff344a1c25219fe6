import PaymentWorkflow.DeliveryProofs

/-!
The terminal status of an operation: what evidence it has, and whether it stays. The three
actions that write it are closing moves; no other move touches a terminal operation.
-/

namespace PaymentWorkflow

def OperationStatus.terminal : OperationStatus → Bool
  | .completed | .rejected => true
  | .created | .processing => false

/-! Evidence, and that it stays. -/

def HasReceipt (db : Db) (operation : Operation) (outcome : ReceiptOutcome) : Prop :=
  ∃ external ∈ db.delivery.externalRequests, external.operationId = operation.id ∧
    ∃ receipt ∈ db.delivery.receipts, receipt.externalRequestId = external.id ∧
      receipt.outcome = outcome ∧ receipt.appliedAt.isSome = true

def HasDecision (db : Db) (operation : Operation) (outcome : DecisionOutcome) : Prop :=
  ∃ decision ∈ db.payment.decisions, some decision.processId = operation.processId ∧
    decision.outcome = outcome

structure Evidenced (db : Db) (operation : Operation) : Prop where
  completedExecution : operation.operationKind = .paymentExecution →
    operation.status = .completed → HasReceipt db operation .completed
  rejectedExecution : operation.operationKind = .paymentExecution →
    operation.status = .rejected → HasReceipt db operation .rejected
  completedApproval : operation.operationKind = .paymentApproval →
    operation.status = .completed → HasDecision db operation .approved
  rejectedApproval : operation.operationKind = .paymentApproval →
    operation.status = .rejected → HasDecision db operation .rejected

structure EvidenceKept (db later : Db) : Prop where
  externals : ∀ external ∈ db.delivery.externalRequests,
    ∃ after ∈ later.delivery.externalRequests, after.id = external.id ∧
      after.operationId = external.operationId
  receipts : ∀ receipt ∈ db.delivery.receipts, ∃ after ∈ later.delivery.receipts,
    after.externalRequestId = receipt.externalRequestId ∧ after.outcome = receipt.outcome ∧
      (receipt.appliedAt.isSome = true → after.appliedAt.isSome = true)
  decisions : ∀ decision ∈ db.payment.decisions, decision ∈ later.payment.decisions

namespace EvidenceKept

variable {db later : Db}

theorem of_rows (externals : later.delivery.externalRequests = db.delivery.externalRequests)
    (receipts : later.delivery.receipts = db.delivery.receipts)
    (decisions : ∀ decision ∈ db.payment.decisions, decision ∈ later.payment.decisions) :
    EvidenceKept db later where
  externals := fun external member => ⟨external, externals ▸ member, rfl, rfl⟩
  receipts := fun receipt member => ⟨receipt, receipts ▸ member, rfl, rfl, id⟩
  decisions := decisions

theorem refl (db : Db) : EvidenceKept db db := of_rows rfl rfl fun _ member => member

theorem trans {first second third : Db} (left : EvidenceKept first second)
    (right : EvidenceKept second third) : EvidenceKept first third where
  externals := by
    intro external member
    obtain ⟨between, betweenMember, sameId, sameOperation⟩ := left.externals external member
    obtain ⟨after, afterMember, sameId', sameOperation'⟩ := right.externals between betweenMember
    exact ⟨after, afterMember, sameId'.trans sameId, sameOperation'.trans sameOperation⟩
  receipts := by
    intro receipt member
    obtain ⟨between, betweenMember, sameKey, sameOutcome, marked⟩ := left.receipts receipt member
    obtain ⟨after, afterMember, sameKey', sameOutcome', marked'⟩ :=
      right.receipts between betweenMember
    exact ⟨after, afterMember, sameKey'.trans sameKey, sameOutcome'.trans sameOutcome,
      fun applied => marked' (marked applied)⟩
  decisions := fun decision member => right.decisions decision (left.decisions decision member)

theorem hasReceipt (kept : EvidenceKept db later) {operation : Operation}
    {outcome : ReceiptOutcome} (evidence : HasReceipt db operation outcome) :
    HasReceipt later operation outcome := by
  obtain ⟨external, member, owner, receipt, receiptMember, answers, stated, applied⟩ := evidence
  obtain ⟨after, afterMember, sameId, sameOperation⟩ := kept.externals external member
  obtain ⟨answer, answerMember, sameKey, sameOutcome, marked⟩ :=
    kept.receipts receipt receiptMember
  exact ⟨after, afterMember, sameOperation.trans owner, answer, answerMember,
    sameKey.trans (answers.trans sameId.symm), sameOutcome.trans stated, marked applied⟩

theorem hasDecision (kept : EvidenceKept db later) {operation : Operation}
    {outcome : DecisionOutcome} (evidence : HasDecision db operation outcome) :
    HasDecision later operation outcome := by
  obtain ⟨decision, member, facts⟩ := evidence
  exact ⟨decision, kept.decisions decision member, facts⟩

theorem evidenced (kept : EvidenceKept db later) {operation : Operation}
    (evidenced : Evidenced db operation) : Evidenced later operation where
  completedExecution := fun kind status => kept.hasReceipt (evidenced.completedExecution kind status)
  rejectedExecution := fun kind status => kept.hasReceipt (evidenced.rejectedExecution kind status)
  completedApproval := fun kind status => kept.hasDecision (evidenced.completedApproval kind status)
  rejectedApproval := fun kind status => kept.hasDecision (evidenced.rejectedApproval kind status)

end EvidenceKept

theorem EngineMove.evidenceKept {processId : Nat} {db later : Db}
    (move : EngineMove processId db later) : EvidenceKept db later := by
  cases move with
  | started | signalled | finished =>
      refine .of_rows (by rw [Db.placeStep_delivery]; rfl) (by rw [Db.placeStep_delivery]; rfl) ?_
      intro decision member
      rw [Db.placeStep_payment]
      exact member
  | decided =>
      refine .of_rows (by rw [Db.placeStep_delivery]; rfl) (by rw [Db.placeStep_delivery]; rfl) ?_
      intro decision member
      rw [Db.placeStep_payment]
      exact List.mem_append_left _ member
  | applied processId messageId =>
      refine ⟨fun external member => ⟨external, member, rfl, rfl⟩, ?_, fun _ member => member⟩
      intro receipt member
      by_cases hit : receipt.messageId = messageId
      · exact ⟨_, Table.mem_update.mpr ⟨receipt, member, rfl⟩, by simp [hit]⟩
      · exact ⟨receipt, Table.mem_update.mpr ⟨receipt, member, by simp [hit]⟩, rfl, rfl, id⟩
  | _ => exact .of_rows rfl rfl fun _ member => member

theorem EngineMoves.evidenceKept {processId : Nat} {db later : Db}
    (moves : EngineMoves processId db later) : EvidenceKept db later := by
  induction moves with
  | refl => exact .refl _
  | tail _ move ih => exact ih.trans move.evidenceKept

theorem OutsideMove.evidenceKept {db later : Db} (move : OutsideMove db later) :
    EvidenceKept db later := by
  cases move with
  | prepared =>
      exact ⟨fun external member => ⟨external, List.mem_append_left _ member, rfl, rfl⟩,
        fun receipt member => ⟨receipt, member, rfl, rfl, id⟩, fun _ member => member⟩
  | limitDecided => exact .of_rows rfl rfl fun _ member => List.mem_append_left _ member
  | outboxDelivered =>
      refine ⟨?_, fun receipt member => ⟨receipt, member, rfl, rfl, id⟩, fun _ member => member⟩
      intro external member
      refine ⟨_, Table.mem_update.mpr ⟨external, member, rfl⟩, ?_⟩
      split <;> exact ⟨rfl, rfl⟩
  | received =>
      refine ⟨?_, fun receipt member => ⟨receipt, List.mem_append_left _ member, rfl, rfl, id⟩,
        fun _ member => member⟩
      intro external member
      refine ⟨_, Table.mem_update.mpr ⟨external, member, rfl⟩, ?_⟩
      split <;> exact ⟨rfl, rfl⟩
  | _ => exact .of_rows rfl rfl fun _ member => member

theorem CloseMove.evidenceKept {target : Target} {operation : Operation} {db later : Db}
    (move : CloseMove target operation db later) : EvidenceKept db later := by
  cases move
  exact .of_rows rfl rfl fun _ member => member

/-! Which operations a move leaves closed. -/

theorem OutsideMove.terminal {db later : Db} (move : OutsideMove db later) :
    ∀ row ∈ later.payment.operations, row.status.terminal = true →
      row ∈ db.payment.operations := by
  intro row member closed
  cases move with
  | requested =>
      rcases List.mem_append.mp member with old | new
      · exact old
      · simp only [List.mem_singleton] at new
        subst new
        simp [OperationStatus.terminal] at closed
  | submitted =>
      obtain ⟨old, oldMember, rfl⟩ := Table.mem_update.mp member
      split at closed
      · simp [OperationStatus.terminal] at closed
      · rename_i missed
        simpa [missed] using oldMember
  | _ => exact member

/-- Every move but a closing one leaves no operation closed that was not. -/
theorem OtherMove.terminal {db later : Db} (move : OtherMove db later) :
    ∀ row ∈ later.payment.operations, row.status.terminal = true →
      row ∈ db.payment.operations := by
  rcases move with ⟨processId, reaches⟩ | outside
  · intro row member _
    rw [← reaches.moves.operations_eq.1]
    exact member
  · exact outside.terminal

theorem OtherMove.evidenceKept {db later : Db} (move : OtherMove db later) :
    EvidenceKept db later := by
  rcases move with ⟨processId, reaches⟩ | outside
  · exact reaches.moves.evidenceKept
  · exact outside.evidenceKept

theorem CloseMove.operations {target : Target} {operation : Operation} {db later : Db}
    (move : CloseMove target operation db later) (ledger : db.Ledger) :
    ∃ status eventType payloadHash, Closes db operation target status eventType ∧
      operation.status ≠ status ∧ operation ∈ db.payment.operations ∧
      later = db.writeStatus operation.id status eventType payloadHash none ∧
      ∀ row ∈ later.payment.operations,
        (row ∈ db.payment.operations ∧ row.id ≠ operation.id) ∨
          row = { operation with status } := by
  cases move with
  | @closed status eventType payloadHash member closes changes =>
      refine ⟨status, eventType, payloadHash, closes, changes, member, rfl, ?_⟩
      intro row rowMember
      obtain ⟨old, oldMember, rfl⟩ := Table.mem_update.mp rowMember
      by_cases hit : old.id = operation.id
      · obtain rfl := Table.key_unique ledger.operationIds oldMember member hit
        simp
      · simp [hit, oldMember]

/-! The evidence of every closed operation. -/

section Evidence

variable {db later : Db}

theorem hasDecision_of_decided {operation : Operation} {outcome : DecisionOutcome}
    (decided : db.decided operation outcome = true) : HasDecision db operation outcome := by
  simpa [Db.decided, HasDecision] using decided

theorem hasReceipt_of_applied {operation : Operation} {outcome : ReceiptOutcome}
    (applied : db.receiptApplied operation outcome = true) : HasReceipt db operation outcome := by
  simp only [Db.receiptApplied, Option.any_eq_true] at applied
  obtain ⟨external, located, receipt, first, marked⟩ := applied
  obtain ⟨member, owner⟩ := Table.lookup_mem located
  obtain ⟨receiptMember, matched⟩ := List.mem_filter.mp (Table.first_mem first)
  simp only [decide_eq_true_eq] at matched
  exact ⟨external, member, owner, receipt, receiptMember, matched.1, matched.2, marked⟩

/-- A closing finds the evidence its status stands for, `approve_v1` only a decision. -/
theorem Closes.evidenced {operation : Operation} {target : Target} {status : OperationStatus}
    {eventType : OperationEventType} (closes : Closes db operation target status eventType)
    (withReceipt : target = .approveV1 → operation.operationKind = .paymentExecution →
      db.receiptApplied operation .completed = true) :
    Evidenced db { operation with status } := by
  cases closes with
  | approved decided =>
      refine ⟨fun execution _ => hasReceipt_of_applied (withReceipt rfl execution), ?_,
        fun _ _ => hasDecision_of_decided decided, ?_⟩ <;> simp
  | completedByReceipt execution applied =>
      refine ⟨fun _ _ => hasReceipt_of_applied applied, ?_, ?_, ?_⟩ <;> simp [execution]
  | completedByDecision approval decided =>
      refine ⟨fun execution => absurd execution approval, ?_,
        fun _ _ => hasDecision_of_decided decided, ?_⟩ <;> simp
  | rejectedByReceipt execution applied =>
      refine ⟨?_, fun _ _ => hasReceipt_of_applied applied, ?_, ?_⟩ <;> simp [execution]
  | rejectedByDecision approval decided =>
      refine ⟨?_, fun execution => absurd execution approval, ?_,
        fun _ _ => hasDecision_of_decided decided⟩ <;> simp

theorem Evidenced.of_open {operation : Operation} (open_ : operation.status.terminal = false) :
    Evidenced db operation := by
  constructor <;>
  · intro _ status
    rw [status] at open_
    simp [OperationStatus.terminal] at open_

def AllEvidenced (db : Db) : Prop :=
  ∀ operation ∈ db.payment.operations, Evidenced db operation

theorem OtherMoves.allEvidenced (moves : OtherMoves db later) (evidenced : AllEvidenced db) :
    AllEvidenced later := by
  induction moves with
  | refl => exact evidenced
  | tail _ move ih =>
      intro operation member
      cases closed : operation.status.terminal with
      | false => exact .of_open closed
      | true =>
          exact (OtherMove.evidenceKept move).evidenced
            (ih operation (OtherMove.terminal move operation member closed))

theorem CloseMove.allEvidenced {target : Target} {operation : Operation}
    (move : CloseMove target operation db later) (ledger : db.Ledger)
    (withReceipt : target = .approveV1 → operation.operationKind = .paymentExecution →
      operation.status ≠ .completed → db.decided operation .approved = true →
        db.receiptApplied operation .completed = true)
    (evidenced : AllEvidenced db) : AllEvidenced later := by
  obtain ⟨status, eventType, _, closes, changes, member, written, rows⟩ := move.operations ledger
  intro row rowMember
  refine move.evidenceKept.evidenced ?_
  rcases rows row rowMember with ⟨old, _⟩ | rfl
  · exact evidenced row old
  · refine closes.evidenced fun approves execution => ?_
    subst approves
    cases closes with
    | approved decided => exact withReceipt rfl execution changes decided

end Evidence

/-- `approve_v1` meets a PAYMENT_EXECUTION operation with an approved decision only where
its COMPLETED receipt has been applied. -/
def ApprovesWithReceipt (system : System) (call : Call) : Bool :=
  match call.invoked? system.db with
  | some (.approveV1, operation) =>
      operation.operationKind ≠ .paymentExecution || operation.status = .completed ||
        !system.db.decided operation .approved || system.db.receiptApplied operation .completed
  | _ => true

theorem ApprovesWithReceipt.receipt {system : System} {call : Call} {operation : Operation}
    (meets : ApprovesWithReceipt system call = true)
    (ran : call.invoked? system.db = some (.approveV1, operation))
    (execution : operation.operationKind = .paymentExecution)
    (open_ : operation.status ≠ .completed)
    (decided : system.db.decided operation .approved = true) :
    system.db.receiptApplied operation .completed = true := by
  simpa [ApprovesWithReceipt, ran, execution, open_, decided] using meets

theorem step_allEvidenced {system : System} {call : Call} (steady : system.db.Steady)
    (evidenced : AllEvidenced system.db) (meets : ApprovesWithReceipt system call = true) :
    AllEvidenced (step system call).db := by
  cases step_cases steady call with
  | other moves => exact moves.allEvidenced evidenced
  | closing ran close moves =>
      refine moves.allEvidenced (close.allEvidenced steady.ledger ?_ evidenced)
      rintro rfl
      exact ApprovesWithReceipt.receipt meets ran

/-- As long as every `approve_v1` finds what `complete_v1` asks for, no operation is ever in
a terminal status without its evidence. -/
theorem closed_with_evidence (config : Config) (clock : Nat → Time) (digest : String → String)
    (calls : List Call)
    (guarded : Runs.Guarded step (fun system call => ApprovesWithReceipt system call = true)
      (fresh config clock digest) calls) :
    AllEvidenced (reached config clock digest calls).db := by
  have both := Runs.guarded_invariant
    (fun system : System => system.db.Steady ∧ AllEvidenced system.db)
    (fun system call holds meets => ⟨(step_moves holds.1 call).steady holds.1,
      step_allEvidenced holds.1 holds.2 meets⟩)
    calls (fresh config clock digest)
    ⟨initial_steady, by simp [AllEvidenced, fresh, Db.initial]⟩ guarded
  exact both.2

namespace Seed

def approved (operationKind : String) : List Call :=
  [request operationKind "10.00", submit, internally "check_limit", internally "approve"]

def closedOperation (operationKind : OperationKind) (status : OperationStatus) : Operation :=
  ⟨0, "request", "client", operationKind, 1000, "RUB", status, some 1⟩

end Seed

theorem closed_with_evidence_approval :
    HasDecision (seeded (Seed.approved "PAYMENT_APPROVAL")).db
      (Seed.closedOperation .paymentApproval .completed) .approved :=
  (closed_with_evidence Seed.config (fun tick => (tick : Int)) id
    (Seed.approved "PAYMENT_APPROVAL") (by decide +kernel)
    (Seed.closedOperation .paymentApproval .completed) (by decide +kernel)).completedApproval rfl rfl

/-- The same calls complete a PAYMENT_EXECUTION operation nobody has sent a receipt for. -/
theorem execution_completed_without_receipt :
    ¬ AllEvidenced (seeded (Seed.approved "PAYMENT_EXECUTION")).db := by
  intro evidenced
  obtain ⟨external, member, _⟩ := (evidenced (Seed.closedOperation .paymentExecution .completed)
    (by decide +kernel)).completedExecution rfl rfl
  rw [show (seeded (Seed.approved "PAYMENT_EXECUTION")).db.delivery.externalRequests = [] by
    decide +kernel] at member
  simp at member

/-! Whether a closed operation stays as it is. -/

namespace Db

def terminalEvents (db : Db) (operationId : Nat) : List OperationEventType :=
  (db.payment.operationEvents.filter fun event => event.operationId = operationId ∧
    (event.eventType = .completed ∨ event.eventType = .rejected)).map OperationEvent.eventType

def closing? (db : Db) (operation : Operation) : Target → Option OperationStatus
  | .approveV1 => if db.decided operation .approved then some .completed else none
  | .completeV1 =>
      if (if operation.operationKind = .paymentExecution then db.receiptApplied operation .completed
        else db.decided operation .approved) then some .completed else none
  | .rejectV1 =>
      if (if operation.operationKind = .paymentExecution then db.receiptApplied operation .rejected
        else db.decided operation .rejected) then some .rejected else none
  | _ => none

end Db

theorem Closes.closing?_eq {db : Db} {operation : Operation} {target : Target}
    {status : OperationStatus} {eventType : OperationEventType}
    (closes : Closes db operation target status eventType) :
    db.closing? operation target = some status := by
  cases closes with
  | approved decided => simp [Db.closing?, decided]
  | completedByReceipt execution applied => simp [Db.closing?, execution, applied]
  | completedByDecision approval decided => simp [Db.closing?, approval, decided]
  | rejectedByReceipt execution applied => simp [Db.closing?, execution, applied]
  | rejectedByDecision approval decided => simp [Db.closing?, approval, decided]

def OperationStatus.closingEvents : OperationStatus → List OperationEventType
  | .completed => [.completed]
  | .rejected => [.rejected]
  | .created | .processing => []

structure Logged (db : Db) : Prop where
  bound : ∀ event ∈ db.payment.operationEvents, event.operationId < db.nextId
  closing : ∀ operation ∈ db.payment.operations,
    db.terminalEvents operation.id = operation.status.closingEvents

section Final

variable {db later : Db}

theorem Logged.of_eq (logged : Logged db)
    (operations : later.payment.operations = db.payment.operations)
    (events : later.payment.operationEvents = db.payment.operationEvents)
    (bound : db.nextId ≤ later.nextId) : Logged later where
  bound := by
    intro event member
    rw [events] at member
    exact Nat.lt_of_lt_of_le (logged.bound event member) bound
  closing := by
    intro operation member
    rw [operations] at member
    simpa only [Db.terminalEvents, events] using logged.closing operation member

theorem terminalEvents_append {operationId other : Nat} {eventType : OperationEventType}
    {payloadHash : String} {occurredAt : Time}
    (events : later.payment.operationEvents =
      db.payment.operationEvents ++ [⟨other, eventType, payloadHash, occurredAt⟩]) :
    later.terminalEvents operationId = db.terminalEvents operationId ++
      if other = operationId ∧ (eventType = .completed ∨ eventType = .rejected) then [eventType]
      else [] := by
  simp only [Db.terminalEvents, events, List.filter_append, List.map_append]
  congr 1
  by_cases hit : other = operationId ∧ (eventType = .completed ∨ eventType = .rejected)
  · simp [hit]
  · simp [hit]

/-- A change of status with the one event that goes with it. -/
theorem Logged.writeStatus (logged : Logged db) (ledger : db.Ledger) {operation : Operation}
    {status : OperationStatus} {eventType : OperationEventType} {payloadHash : String}
    {processId : Option Nat}
    (member : operation ∈ db.payment.operations) (open_ : operation.status.terminal = false)
    (event : status.closingEvents =
      if eventType = .completed ∨ eventType = .rejected then [eventType] else []) :
    Logged (db.writeStatus operation.id status eventType payloadHash processId) where
  bound := by
    intro other otherMember
    rcases List.mem_append.mp otherMember with old | new
    · exact logged.bound other old
    · simp only [List.mem_singleton] at new
      subst new
      exact ledger.operationBound operation member
  closing := by
    intro row rowMember
    obtain ⟨old, oldMember, rfl⟩ := Table.mem_update.mp rowMember
    have before := logged.closing old oldMember
    rw [@terminalEvents_append db _ _ _ _ _ _ rfl]
    by_cases hit : old.id = operation.id
    · obtain rfl := Table.key_unique ledger.operationIds oldMember member hit
      have none : old.status.closingEvents = [] := by
        cases state : old.status <;> simp_all [OperationStatus.terminal,
          OperationStatus.closingEvents]
      simp [before, none, event]
    · simp [hit, before, Ne.symm hit]

theorem OutsideMove.logged (move : OutsideMove db later) (ledger : db.Ledger)
    (logged : Logged db) : Logged later := by
  cases move with
  | requested =>
      refine ⟨?_, ?_⟩
      · intro event member
        rcases List.mem_append.mp member with old | new
        · exact Nat.lt_succ_of_lt (logged.bound event old)
        · simp only [List.mem_singleton] at new
          subst new
          exact Nat.lt_succ_self _
      · intro row member
        rw [@terminalEvents_append db _ _ _ _ _ _ rfl]
        rcases List.mem_append.mp member with old | new
        · simpa using logged.closing row old
        · simp only [List.mem_singleton] at new
          subst new
          have unused : db.terminalEvents db.nextId = [] := by
            simp only [Db.terminalEvents, List.map_eq_nil_iff, List.filter_eq_nil_iff,
              decide_eq_true_eq, not_and]
            intro event eventMember same
            have := logged.bound event eventMember
            omega
          simp [unused, OperationStatus.closingEvents]
  | submitted processId payloadHash member created =>
      exact logged.writeStatus ledger member (by rw [created]; rfl) (by simp [OperationStatus.closingEvents])
  | prepared => exact logged.of_eq rfl rfl (Nat.le_add_right _ 2)
  | requeued | limitDecided => exact logged.of_eq rfl rfl (Nat.le_succ _)
  | _ => exact logged.of_eq rfl rfl (Nat.le_refl _)

def ClosedKept (db later : Db) : Prop :=
  ∀ operation ∈ db.payment.operations, operation.status.terminal = true →
    operation ∈ later.payment.operations

theorem ClosedKept.trans {first second third : Db} (left : ClosedKept first second)
    (right : ClosedKept second third) : ClosedKept first third :=
  fun operation member closed => right operation (left operation member closed) closed

theorem writeStatus_closedKept (ledger : db.Ledger) {operation : Operation}
    {status : OperationStatus} {eventType : OperationEventType} {payloadHash : String}
    {processId : Option Nat}
    (member : operation ∈ db.payment.operations) (open_ : operation.status.terminal = false) :
    ClosedKept db (db.writeStatus operation.id status eventType payloadHash processId) := by
  intro row rowMember closed
  refine Table.mem_update.mpr ⟨row, rowMember, ?_⟩
  have different : row.id ≠ operation.id := by
    intro same
    rw [Table.key_unique ledger.operationIds rowMember member same, open_] at closed
    simp at closed
  simp [different]

theorem OutsideMove.closedKept (move : OutsideMove db later) (ledger : db.Ledger) :
    ClosedKept db later := by
  cases move with
  | requested => exact fun operation member _ => List.mem_append_left _ member
  | submitted processId payloadHash member created =>
      exact writeStatus_closedKept ledger member (by rw [created]; rfl)
  | _ => exact fun operation member _ => member

theorem OtherMove.final (move : OtherMove db later) (steady : db.Steady) (logged : Logged db) :
    Logged later ∧ ClosedKept db later := by
  rcases move with ⟨processId, reaches⟩ | outside
  · obtain ⟨operations, events⟩ := reaches.moves.operations_eq
    refine ⟨logged.of_eq operations events reaches.moves.nextId_le, ?_⟩
    intro operation member _
    rw [operations]
    exact member
  · exact ⟨outside.logged steady.ledger logged, outside.closedKept steady.ledger⟩

theorem OtherMoves.final (moves : OtherMoves db later) (steady : db.Steady) (logged : Logged db) :
    Logged later ∧ ClosedKept db later := by
  induction moves with
  | refl => exact ⟨logged, fun _ member _ => member⟩
  | tail earlier move ih =>
      have between := SystemMoves.steady (OtherMoves.system earlier) steady
      have next := OtherMove.final move between ih.1
      exact ⟨next.1, ih.2.trans next.2⟩

theorem CloseMove.final {target : Target} {operation : Operation}
    (move : CloseMove target operation db later) (steady : db.Steady)
    (open_ : operation.status.terminal = false) (logged : Logged db) :
    Logged later ∧ ClosedKept db later := by
  cases move with
  | closed payloadHash member closes changes =>
      refine ⟨logged.writeStatus steady.ledger member open_ ?_,
        writeStatus_closedKept steady.ledger member open_⟩
      cases closes <;> simp [OperationStatus.closingEvents]

end Final

/-- No action whose evidence test passes is run on an operation that is closed the other way. -/
def ClosesOpen (system : System) (call : Call) : Bool :=
  match call.invoked? system.db with
  | some (target, operation) =>
      !operation.status.terminal ||
        (system.db.closing? operation target).all fun status => status = operation.status
  | none => true

theorem ClosesOpen.open_ {system : System} {call : Call} {target : Target} {operation : Operation}
    {later : Db} (meets : ClosesOpen system call = true)
    (ran : call.invoked? system.db = some (target, operation))
    (move : CloseMove target operation system.db later) : operation.status.terminal = false := by
  cases move with
  | closed payloadHash member closes changes =>
      simpa [ClosesOpen, ran, closes.closing?_eq, Ne.symm changes] using meets

theorem step_final {system : System} {call : Call} (steady : system.db.Steady)
    (logged : Logged system.db) (meets : ClosesOpen system call = true) :
    Logged (step system call).db ∧ ClosedKept system.db (step system call).db := by
  cases step_cases steady call with
  | other moves => exact moves.final steady logged
  | closing ran close moves =>
      have first := close.final steady (ClosesOpen.open_ meets ran close) logged
      have between : Db.Steady _ := SystemMove.steady (.inr ⟨_, _, close⟩) steady
      have rest := moves.final between first.1
      exact ⟨rest.1, first.2.trans rest.2⟩

theorem run_final : ∀ (calls : List Call) (system : System), system.db.Steady → Logged system.db →
    Runs.Guarded step (fun system call => ClosesOpen system call = true) system calls →
      Logged (Runs.run step system calls).db ∧
        ClosedKept system.db (Runs.run step system calls).db := by
  intro calls
  induction calls with
  | nil => intro system _ logged _; exact ⟨logged, fun _ member _ => member⟩
  | cons call rest ih =>
      intro system steady logged guarded
      have first := step_final steady logged guarded.1
      have last := ih (step system call) ((step_moves steady call).steady steady) first.1 guarded.2
      exact ⟨last.1, first.2.trans last.2⟩

def StatusKept (db later : Db) : Prop :=
  ∀ operation ∈ db.payment.operations, operation.status.terminal = true →
    ∃ after ∈ later.payment.operations, after.id = operation.id ∧
      after.status = operation.status

def ClosedOnce (db : Db) : Prop :=
  ∀ operation ∈ db.payment.operations, (db.terminalEvents operation.id).length ≤ 1

/-- As long as nobody closes an operation that is closed the other way, a terminal status
stays and is logged once. -/
theorem final_status_stays (config : Config) (clock : Nat → Time) (digest : String → String)
    (calls more : List Call)
    (guarded : Runs.Guarded step (fun system call => ClosesOpen system call = true)
      (fresh config clock digest) (calls ++ more)) :
    StatusKept (reached config clock digest calls).db
        (reached config clock digest (calls ++ more)).db ∧
      ClosedOnce (reached config clock digest calls).db := by
  obtain ⟨first, last⟩ := (Runs.guarded_append _ calls more).mp guarded
  have logged : Logged (fresh config clock digest).db := by
    constructor <;> simp [fresh, Db.initial]
  have before : Logged (reached config clock digest calls).db :=
    (run_final calls _ initial_steady logged first).1
  have after := run_final more _ (reached_steady calls) before last
  constructor
  · intro operation member closed
    rw [reached_append]
    exact ⟨operation, after.2 operation member closed, rfl, rfl⟩
  · intro operation member
    rw [before.closing operation member]
    cases operation.status <;> simp [OperationStatus.closingEvents]

namespace Seed

def disputed : List Call :=
  prepared ++ [receipt "first" (uuidText 10) "COMPLETED", receipt "second" (uuidText 10) "REJECTED",
    .reconcileInbox (some 100) fun _ => false]

end Seed

theorem final_status_stays_completed :
    StatusKept (seeded (Seed.disputed ++ [Seed.internally "complete"])).db
      (seeded (Seed.disputed ++ [Seed.internally "complete"] ++ [Seed.internally "complete"])).db :=
  (final_status_stays Seed.config (fun tick => (tick : Int)) id
    (Seed.disputed ++ [Seed.internally "complete"]) [Seed.internally "complete"]
    (by decide +kernel)).1

/-- Both receipts are marked applied, so the operation can be completed and then rejected. -/
theorem completed_then_rejected :
    ¬ StatusKept (seeded (Seed.disputed ++ [Seed.internally "complete"])).db
        (seeded (Seed.disputed ++ [Seed.internally "complete", Seed.internally "reject"])).db ∧
      ¬ ClosedOnce
        (seeded (Seed.disputed ++ [Seed.internally "complete", Seed.internally "reject"])).db := by
  unfold StatusKept ClosedOnce
  decide +kernel

end PaymentWorkflow
