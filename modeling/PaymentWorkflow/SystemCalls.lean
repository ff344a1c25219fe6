import PaymentWorkflow.SystemMoves

/-! Every committed call of the system as a chain of moves. -/

namespace PaymentWorkflow

def Db.operationOf? (db : Db) (payload : Json) : Option Operation :=
  (payload.text? "operationId").bind fun content => (castUuid content).bind db.payment.operation?

def invoked? (db : Db) (module action : String) (version : Option Int) (context : Context)
    (payload : Json) : Option (Target × Operation) :=
  match catalogRow db.config module action version with
  | .error _ => none
  | .ok row =>
      if ¬ row.requiredPolicy.all context.scopes.contains then none
      else
        (target? row.targetSchema row.targetFunction).bind fun target =>
          (db.operationOf? payload).map fun operation => (target, operation)

inductive CallMoves (invoked : Option (Target × Operation)) (db later : Db) : Prop
  | other (moves : OtherMoves db later)
  | closing {target : Target} {operation : Operation} {middle : Db}
      (ran : invoked = some (target, operation)) (close : CloseMove target operation db middle)
      (moves : OtherMoves middle later)

namespace CallMoves

variable {invoked : Option (Target × Operation)} {db middle later : Db}

theorem after (moves : CallMoves invoked db middle) (rest : OtherMoves middle later) :
    CallMoves invoked db later := by
  cases moves with
  | other moves => exact .other (moves.trans rest)
  | closing ran close moves => exact .closing ran close (moves.trans rest)

theorem system (moves : CallMoves invoked db later) : SystemMoves db later := by
  cases moves with
  | other moves => exact moves.system
  | closing ran close moves => exact Relation.ReflTransGen.head (.inr ⟨_, _, close⟩) moves.system

end CallMoves

section Actions

variable {db later : Db} {payload : Json} {envelope : Envelope}

theorem withOperation_cases {body : Operation → Except SqlError (Db × Envelope)}
    (returned : withOperation db payload body = .ok (later, envelope)) :
    (later = db ∧ ∃ code message, envelope = .error code message) ∨
      ∃ operation, db.operationOf? payload = some operation ∧
        operation ∈ db.payment.operations ∧ body operation = .ok (later, envelope) := by
  simp only [withOperation] at returned
  split at returned
  · cases returned
    exact .inl ⟨rfl, _, _, rfl⟩
  rename_i content named
  split at returned
  · cases returned
    exact .inl ⟨rfl, _, _, rfl⟩
  rename_i id cast
  split at returned
  · cases returned
    exact .inl ⟨rfl, _, _, rfl⟩
  · rename_i operation found
    exact .inr ⟨operation, by simp [Db.operationOf?, named, cast, found],
      (Table.lookup_mem found).1, returned⟩

theorem setStatus_closed {operation : Operation} {status : OperationStatus}
    {eventType : OperationEventType} {payloadHash : String}
    (unique : (db.payment.operations.map Operation.id).Nodup)
    (member : operation ∈ db.payment.operations) (terminal : eventType ≠ .submitted)
    (returned : setStatus db operation.id status eventType payloadHash none = .ok later) :
    (operation.status = status ∧ later = db) ∨
      (operation.status ≠ status ∧
        later = db.writeStatus operation.id status eventType payloadHash none) := by
  simp only [setStatus, Payment.operation?, Table.lookup_of_mem unique member, terminal, false_and,
    if_false] at returned
  split at returned
  · rename_i same
    cases returned
    exact .inl ⟨same, rfl⟩
  · rename_i changes
    cases returned
    exact .inr ⟨changes, rfl⟩

theorem closeOperation_moves {target : Target} {operation : Operation} {status : OperationStatus}
    {eventType : OperationEventType} {outcome : String}
    (unique : (db.payment.operations.map Operation.id).Nodup)
    (member : operation ∈ db.payment.operations)
    (closes : Closes db operation target status eventType)
    (returned : closeOperation db payload operation status eventType outcome =
      .ok (later, envelope)) :
    later = db ∨ CloseMove target operation db later := by
  have terminal : eventType ≠ .submitted := by cases closes <;> simp
  obtain ⟨closed, written, rest⟩ := Runs.bind_eq_ok.mp returned
  cases rest
  rcases setStatus_closed unique member terminal written with ⟨_, rfl⟩ | ⟨changes, rfl⟩
  · exact .inl rfl
  · exact .inr (.closed _ member closes changes)

theorem withEvidence_moves {target : Target} {operation : Operation} {receipt : ReceiptOutcome}
    {decision : DecisionOutcome} {receiptMissing decisionMissing outcome : String}
    {status : OperationStatus} {eventType : OperationEventType}
    (unique : (db.payment.operations.map Operation.id).Nodup)
    (member : operation ∈ db.payment.operations)
    (byReceipt : operation.operationKind = .paymentExecution →
      db.receiptApplied operation receipt = true → Closes db operation target status eventType)
    (byDecision : operation.operationKind ≠ .paymentExecution →
      db.decided operation decision = true → Closes db operation target status eventType)
    (returned : withEvidence db operation receipt decision receiptMissing decisionMissing
      (closeOperation db payload operation status eventType outcome) = .ok (later, envelope)) :
    later = db ∨ CloseMove target operation db later := by
  simp only [withEvidence] at returned
  split at returned
  · rename_i execution
    split at returned
    · rename_i applied
      exact closeOperation_moves unique member (byReceipt execution applied) returned
    · cases returned
      exact .inl rfl
  · rename_i approval
    split at returned
    · rename_i decided
      exact closeOperation_moves unique member (byDecision approval decided) returned
    · cases returned
      exact .inl rfl

theorem closing_moves {target : Target} {body : Operation → Except SqlError (Db × Envelope)}
    (closes : ∀ operation ∈ db.payment.operations, body operation = .ok (later, envelope) →
      later = db ∨ CloseMove target operation db later)
    (returned : withOperation db payload body = .ok (later, envelope)) :
    OtherMoves db later ∨ ∃ operation, db.operationOf? payload = some operation ∧
      CloseMove target operation db later := by
  rcases withOperation_cases returned with ⟨rfl, _⟩ | ⟨operation, located, member, run⟩
  · exact .inl .refl
  · rcases closes operation member run with rfl | close
    · exact .inl .refl
    · exact .inr ⟨operation, located, close⟩

theorem approveV1_closes (unique : (db.payment.operations.map Operation.id).Nodup)
    (returned : approveV1 db payload = .ok (later, envelope)) :
    OtherMoves db later ∨ ∃ operation, db.operationOf? payload = some operation ∧
      CloseMove .approveV1 operation db later := by
  refine closing_moves (fun operation member run => ?_) returned
  split at run
  · rename_i decided
    exact closeOperation_moves unique member (.approved decided) run
  · cases run
    exact .inl rfl

theorem completeV1_closes (unique : (db.payment.operations.map Operation.id).Nodup)
    (returned : completeV1 db payload = .ok (later, envelope)) :
    OtherMoves db later ∨ ∃ operation, db.operationOf? payload = some operation ∧
      CloseMove .completeV1 operation db later :=
  closing_moves (fun _ member => withEvidence_moves unique member .completedByReceipt
    .completedByDecision) returned

theorem rejectV1_closes (unique : (db.payment.operations.map Operation.id).Nodup)
    (returned : rejectV1 db payload = .ok (later, envelope)) :
    OtherMoves db later ∨ ∃ operation, db.operationOf? payload = some operation ∧
      CloseMove .rejectV1 operation db later :=
  closing_moves (fun _ member => withEvidence_moves unique member .rejectedByReceipt
    .rejectedByDecision) returned

theorem checkLimitV1_moves (returned : checkLimitV1 db payload = .ok (later, envelope)) :
    OutsideMoves db later := by
  rcases withOperation_cases returned with ⟨rfl, _⟩ | ⟨operation, _, member, body⟩
  · exact .refl
  · simp only [checkLimit] at body
    split at body
    · rename_i within
      split at body
      · simp at body
      rename_i processId pinned
      split at body
      · simp at body
      rename_i step running
      cases body
      split
      · exact .refl
      · rename_i undecided
        exact .single (.limitDecided member pinned within running (by simpa using undecided))
    · cases body
      exact .refl

theorem prepareExternalV1_moves {context : Context}
    (returned : prepareExternalV1 db context payload = .ok (later, envelope)) :
    OutsideMoves db later := by
  rcases withOperation_cases returned with ⟨rfl, _⟩ | ⟨operation, _, member, body⟩
  · exact .refl
  · split at body
    · cases body
      exact .refl
    rename_i processId pinned
    obtain ⟨⟨prepared, externalRequestId⟩, first, rest⟩ := Runs.bind_eq_ok.mp body
    cases rest
    simp only [prepareExternal] at first
    split at first
    · rename_i absent
      obtain ⟨correlationId, _, placed⟩ := Runs.bind_eq_ok.mp first
      split at placed
      · simp at placed
      · rename_i fresh
        cases placed
        exact .single (.prepared correlationId member (by rw [pinned]; simp) absent
          (by simpa using fresh))
    · rename_i external found
      split at first
      · cases first
        exact .refl
      · rename_i absent
        obtain ⟨correlationId, _, placed⟩ := Runs.bind_eq_ok.mp first
        cases placed
        exact .single (.requeued correlationId (Table.lookup_mem found).1
          (by simpa using absent))

theorem requestV1_moves {context : Context}
    (returned : requestV1 db context payload = .ok (later, envelope)) : OutsideMoves db later := by
  simp only [requestV1] at returned
  split at returned
  · cases returned
    exact .refl
  split at returned
  · cases returned
    exact .refl
  rename_i named
  split at returned
  · simp at returned
  split at returned
  · simp at returned
  split at returned
  · cases returned
    exact .refl
  split at returned
  · split at returned
    · simp at returned
    split at returned
    · simp at returned
    rename_i valid
    split at returned
    · simp at returned
    rename_i fresh
    cases returned
    simp only [not_or, not_not] at valid
    exact .single (.requested _ named valid.1 (by simpa using fresh))
  · simp at returned

theorem storeReceipt_moves {external : ExternalRequest} {bodyHash : String}
    (member : external ∈ db.delivery.externalRequests)
    (returned : storeReceipt db external bodyHash payload = .ok (later, envelope)) :
    OutsideMoves db later := by
  simp only [storeReceipt] at returned
  split at returned
  · cases returned
    exact .refl
  rename_i freshMessage
  split at returned
  · rename_i messageId processId outcomeText named pinned stated
    rw [named] at freshMessage
    split at returned
    · simp at returned
    rename_i outcome known
    split at returned
    · simp at returned
    rename_i freshReceipt
    obtain ⟨operation, owner, process⟩ := Option.bind_eq_some_iff.mp pinned
    cases returned
    have move := @OutsideMove.received db _ _ bodyHash _ _ outcome (receiptBody payload) member
      owner process freshMessage (by simpa using freshReceipt)
    exact (Relation.ReflTransGen.single move).tail (.ticked 1)
  · simp at returned

theorem receiptAcceptV1_moves {context : Context}
    (returned : receiptAcceptV1 db context payload = .ok (later, envelope)) :
    OutsideMoves db later := by
  obtain ⟨version, _, body⟩ := Runs.bind_eq_ok.mp returned
  split at body
  · split at body <;>
    · cases body
      exact .refl
  · simp only [receiptAcceptBody] at body
    split at body
    · cases body
      exact .refl
    split at body
    · cases body
      exact .refl
    split at body
    · cases body
      exact .refl
    split at body
    · cases body
      exact .refl
    split at body
    · cases body
      exact .refl
    split at body
    · cases body
      exact .refl
    split at body
    · cases body
      exact .refl
    rename_i external found
    obtain ⟨_, _, located⟩ := Option.bind_eq_some_iff.mp found
    exact storeReceipt_moves (Table.lookup_mem located).1 body

theorem startProcess_process (calm : db.Calm) {flowName businessKey : String} {data : Json}
    {reply : StartReply}
    (returned : startProcess db flowName businessKey data = .ok (later, reply)) :
    ∃ process ∈ later.workflow.processes, replyTo process = reply ∧ process.flowName = flowName ∧
      process.businessKey = businessKey ∧ process.data.same data = true := by
  have existing : ∀ {process : Process}, db.startedProcess? flowName businessKey = some process →
      process ∈ db.workflow.processes ∧ process.flowName = flowName ∧
        process.businessKey = businessKey := by
    intro process found
    have facts := List.find?_some found
    simp only [decide_eq_true_eq] at facts
    exact ⟨List.mem_of_find?_eq_some found, facts⟩
  simp only [startProcess] at returned
  split at returned
  · split at returned
    · rename_i process found
      split at returned
      · rename_i same
        cases returned
        obtain ⟨member, flow, key⟩ := existing found
        exact ⟨process, member, rfl, flow, key, same⟩
      · cases returned
    · cases returned
  · simp only [startProcessBody] at returned
    split at returned
    · cases returned
    split at returned
    · cases returned
    split at returned
    · rename_i process found
      split at returned
      · rename_i same
        cases returned
        obtain ⟨member, flow, key⟩ := existing found
        exact ⟨process, member, rfl, flow, key, same⟩
      · cases returned
    rename_i absent
    split at returned
    · cases returned
    rename_i version active
    obtain ⟨entered, first, rest⟩ := Runs.bind_eq_ok.mp returned
    split at rest
    · rename_i process found
      cases rest
      obtain ⟨inserted, definition, insertedFound, defined, reaches⟩ :=
        enterStep_enters _ _ _ _ _ first
      have rows := Db.startRows calm.sound.rows flowName version.version businessKey data
      have here := @Db.Rows.process? _ rows ⟨db.nextId, flowName, version.version, businessKey,
        .created, none, data⟩ (by simp)
      obtain rfl := Option.some.inj (insertedFound.symm.trans here)
      have move := @EngineMove.started db _ _ data _ _ absent active defined
      have sound := move.sound calm.sound
      have entering := reaches rows sound
      have placed : Db.placedProcess definition ⟨db.nextId, flowName, version.version, businessKey,
          .created, none, data⟩ ∈ (((db.insertProcess flowName version.version businessKey
            data).insertEvent db.nextId none .processStarted).placeStep db.nextId
              definition).workflow.processes := by
        rw [Db.placeStep_processes, Table.mem_update]
        exact ⟨_, (Table.lookup_mem here).1, by simp⟩
      obtain ⟨after, member, fixed⟩ := (entering.moves.kept sound).process placed
      have columns := Process.fixed_columns fixed
      obtain ⟨inside, id⟩ := Table.lookup_mem found
      obtain rfl := Table.key_unique (entering.sound sound).rows.processIds member inside
        (columns.1.trans id.symm)
      refine ⟨after, member, rfl, columns.2.1, columns.2.2.2.1, ?_⟩
      rw [show after.data = data from columns.2.2.2.2, Json.same_refl]
    · cases rest

/-- The two tables a started process cannot have touched still show the operation as it was. -/
theorem submitOperation_moves {operation : Operation} (steady : db.Steady)
    (member : operation ∈ db.payment.operations)
    (returned : submitOperation db payload operation = .ok (later, envelope)) :
    OtherMoves db later := by
  simp only [submitOperation] at returned
  split at returned
  · cases returned
    exact .refl
  rename_i unpinned
  split at returned
  · cases returned
    exact .refl
  rename_i created
  simp only [ne_eq, not_not] at created
  split at returned
  · cases returned
    exact .refl
  rename_i binding bound
  obtain ⟨⟨started, reply⟩, first, rest⟩ := Runs.bind_eq_ok.mp returned
  obtain ⟨submitted, written, last⟩ := Runs.bind_eq_ok.mp rest
  cases last
  have reaches := startProcess_reaches steady.calm first
  obtain ⟨process, known, answers, flow, key, data⟩ := startProcess_process steady.calm first
  have data := same_processData.mp data
  have ledger := steady.ledger.of_engine reaches.moves
  have inside : operation ∈ started.payment.operations := by
    rw [reaches.moves.operations_eq.1]
    exact member
  simp only [setStatus, Payment.operation?, Table.lookup_of_mem ledger.operationIds inside]
    at written
  split at written
  · rename_i same
    rw [created] at same
    simp at same
  split at written
  · simp at written
  rename_i once
  cases written
  have move := OutsideMove.submitted reply.processId (db.digest payload.render) inside created unpinned (by simpa using once)
    ⟨process, known, by rw [← answers]; rfl, key, data, binding,
      by rw [reaches.moves.config_eq]; exact bound, flow⟩
  exact (OtherMoves.of_reaches reaches).tail (.inr move)

theorem submitV1_moves (steady : db.Steady)
    (returned : submitV1 db payload = .ok (later, envelope)) : OtherMoves db later := by
  rcases withOperation_cases returned with ⟨rfl, _⟩ | ⟨operation, _, member, body⟩
  · exact .refl
  · exact submitOperation_moves steady member body

theorem reading_moves {body : Operation → Envelope}
    (returned : withOperation db payload (fun operation => .ok (db, body operation)) =
      .ok (later, envelope)) : OutsideMoves db later := by
  rcases withOperation_cases returned with ⟨rfl, _⟩ | ⟨operation, _, _, read⟩
  · exact .refl
  · cases read
    exact .refl

theorem validateV1_moves (returned : validateV1 db payload = .ok (later, envelope)) :
    OutsideMoves db later := by
  rcases withOperation_cases returned with ⟨rfl, _⟩ | ⟨operation, _, member, body⟩
  · exact .refl
  · split at body <;>
    · cases body
      exact .refl

theorem applyReceiptV1_moves (returned : applyReceiptV1 db payload = .ok (later, envelope)) :
    OutsideMoves db later := by
  rcases withOperation_cases returned with ⟨rfl, _⟩ | ⟨operation, _, member, body⟩
  · exact .refl
  · split at body
    · cases body
      exact .refl
    · split at body <;>
      · cases body
        exact .refl

theorem runTarget_moves {target : Target} {context : Context} (steady : db.Steady)
    (returned : runTarget target db context payload = .ok (later, envelope)) :
    OtherMoves db later ∨ ∃ operation, db.operationOf? payload = some operation ∧
      CloseMove target operation db later := by
  cases target with
  | requestV1 => exact .inl (.of_outside (requestV1_moves returned))
  | getV1 => exact .inl (.of_outside (reading_moves returned))
  | operationEventsV1 => exact .inl (.of_outside (reading_moves returned))
  | submitV1 => exact .inl (submitV1_moves steady returned)
  | validateV1 => exact .inl (.of_outside (validateV1_moves returned))
  | prepareExternalV1 => exact .inl (.of_outside (prepareExternalV1_moves returned))
  | applyReceiptV1 => exact .inl (.of_outside (applyReceiptV1_moves returned))
  | checkLimitV1 => exact .inl (.of_outside (checkLimitV1_moves returned))
  | approveV1 => exact approveV1_closes steady.ledger.operationIds returned
  | completeV1 => exact completeV1_closes steady.ledger.operationIds returned
  | rejectV1 => exact rejectV1_closes steady.ledger.operationIds returned
  | receiptAcceptV1 => exact .inl (.of_outside (receiptAcceptV1_moves returned))
  | manualV1 =>
      obtain ⟨owner, reaches⟩ := manualV1_reaches steady.calm returned
      exact .inl (.of_reaches reaches)

theorem recordDispatch_moves {module action : String} {version : Int} {context : Context}
    (returned : recordDispatch db module action version context envelope = .ok later) :
    OutsideMoves db later := by
  simp only [recordDispatch] at returned
  split at returned
  · cases returned
    exact .refl
  split at returned
  · split at returned
    · simp at returned
    split at returned
    · cases returned
      exact .refl
    split at returned
    · simp at returned
    split at returned
    · simp at returned
    rename_i fresh
    cases returned
    exact .single (.dispatched _ (by simpa using fresh))
  · simp at returned

theorem invoke_cases {module action : String} {version : Option Int} {context : Context}
    (returned : invoke db module action version context payload = .ok (later, envelope)) :
    (later = db ∧ ∃ code message, envelope = .error code message) ∨
      ∃ row target changed, catalogRow db.config module action version = .ok row ∧
        target? row.targetSchema row.targetFunction = some target ∧
          row.requiredPolicy.all context.scopes.contains = true ∧
            runTarget target db context payload = .ok (changed, envelope) ∧
              recordDispatch changed module action row.version context envelope = .ok later := by
  simp only [invoke] at returned
  split at returned
  · cases returned
    exact .inl ⟨rfl, _, _, rfl⟩
  rename_i row found
  split at returned
  · cases returned
    exact .inl ⟨rfl, _, _, rfl⟩
  rename_i allowed
  split at returned
  · cases returned
    exact .inl ⟨rfl, _, _, rfl⟩
  rename_i target known
  split at returned
  · cases returned
    exact .inl ⟨rfl, _, _, rfl⟩
  rename_i changed answer ran
  obtain ⟨recorded, first, rest⟩ := Runs.bind_eq_ok.mp returned
  cases rest
  exact .inr ⟨row, target, changed, found, known, by simpa using allowed, ran, first⟩

theorem invoke_moves {module action : String} {version : Option Int} {context : Context}
    (steady : db.Steady)
    (returned : invoke db module action version context payload = .ok (later, envelope)) :
    CallMoves (invoked? db module action version context payload) db later := by
  rcases invoke_cases returned with
    ⟨rfl, _⟩ | ⟨row, target, changed, found, known, allowed, ran, recorded⟩
  · exact .other .refl
  · have last := OtherMoves.of_outside (recordDispatch_moves recorded)
    rcases runTarget_moves steady ran with moves | ⟨operation, located, close⟩
    · exact .other (moves.trans last)
    · exact .closing (by simp [invoked?, found, known, located, allowed]) close last

end Actions

section Calls

variable {db later : Db}

theorem runAction_cases {claimed : ClaimedJob} {outcome : String}
    (returned : runAction db claimed = .ok (later, outcome)) :
    ∃ payload result, buildPayload claimed.processData claimed.task = .ok payload ∧
      invoke db claimed.task.module claimed.task.action (some claimed.task.actionVersion)
        (workerContext claimed) payload = .ok (later, .ok outcome result) ∧
      outcome ∈ claimed.outcomes := by
  simp only [runAction] at returned
  split at returned
  · simp at returned
  split at returned
  · simp at returned
  rename_i payload built
  split at returned
  · simp at returned
  · simp at returned
  rename_i acted reached result invoked
  split at returned
  · simp at returned
  rename_i allowed
  cases returned
  exact ⟨payload, result, built, invoked, by simpa using allowed⟩

theorem workTransaction_cases {claimed : ClaimedJob}
    (returned : workTransaction db claimed = .ok later) :
    ∃ acted outcome reply, runAction db claimed = .ok (acted, outcome) ∧
      finishClaimed acted claimed outcome = .ok (later, reply) := by
  simp only [workTransaction] at returned
  split at returned
  · simp at returned
  rename_i acted outcome ran
  split at returned
  · simp at returned
  rename_i finished reply completed
  cases returned
  exact ⟨acted, outcome, reply, ran, completed⟩

def Call.invoked? (db : Db) : Call → Option (Target × Operation)
  | .invoke module action version context payload =>
      PaymentWorkflow.invoked? db module action version context payload
  | .work claimed =>
      (buildPayload claimed.processData claimed.task).toOption.bind fun payload =>
        PaymentWorkflow.invoked? db claimed.task.module claimed.task.action
          (some claimed.task.actionVersion) (workerContext claimed) payload
  | _ => none

theorem runAction_moves {claimed : ClaimedJob} {outcome : String} (steady : db.Steady)
    (returned : runAction db claimed = .ok (later, outcome)) :
    CallMoves ((Call.work claimed).invoked? db) db later := by
  obtain ⟨_, _, built, invoked, _⟩ := runAction_cases returned
  have moves := invoke_moves steady invoked
  simpa only [Call.invoked?, built, Except.toOption, Option.bind_some] using moves

theorem workTransaction_moves {claimed : ClaimedJob} (steady : db.Steady)
    (returned : workTransaction db claimed = .ok later) :
    CallMoves ((Call.work claimed).invoked? db) db later := by
  obtain ⟨acted, outcome, reply, ran, completed⟩ := workTransaction_cases returned
  have first := runAction_moves steady ran
  obtain ⟨job, _, _, _, reaches⟩ :=
    finishJob_reaches (first.system.steady steady).calm completed
  exact first.after (.of_reaches reaches)

theorem claimOutbox_moves {owner : String} {limit : Option Int} {locked : Nat → Bool}
    {claims : List OutboxClaim} (unique : (db.delivery.outbox.map OutboxRow.id).Nodup)
    (returned : claimOutbox db owner limit locked = .ok (later, claims)) :
    OutsideMoves db later := by
  simp only [claimOutbox] at returned
  split at returned
  · simp at returned
  split at returned
  · simp at returned
  cases returned
  have part : (db.pickOutbox limit locked).Sublist _ :=
    (Table.takeLimit_sublist limit _).trans List.filter_sublist
  obtain ⟨keys, members⟩ := Table.sorted_pick unique (List.perm_insertionSort _ _) part
  have move := @OutsideMove.outboxLeased db (db.pickOutbox limit locked) owner keys (by
    intro row member
    obtain ⟨inside, claimable⟩ := members row member
    simp only [OutboxRow.claimableAt, decide_eq_true_eq] at claimable
    refine ⟨inside, ?_⟩
    rcases claimable with ⟨pending | waits, _⟩ | ⟨leased, _⟩
    · exact .inl pending
    · exact .inr (.inl waits)
    · exact .inr (.inr leased))
  exact (Relation.ReflTransGen.single move).tail (.ticked _)

theorem heldBy_self {row : OutboxRow} {outboxId : Nat} {owner : Option String}
    {leaseVersion : Option Int} (held : row.heldBy outboxId owner leaseVersion = true) :
    row.id = outboxId := by
  simp only [OutboxRow.heldBy, decide_eq_true_eq] at held
  exact held.1

theorem succeedOutbox_moves {outboxId : Nat} {owner providerPaymentId : Option String}
    {leaseVersion : Option Int} :
    OutsideMoves db (succeedOutbox db outboxId owner leaseVersion providerPaymentId).1 := by
  simp only [succeedOutbox]
  split
  · exact .refl
  · rename_i row found
    have held := List.find?_some found
    have member := List.mem_of_find?_eq_some found
    obtain rfl := heldBy_self held
    exact (Relation.ReflTransGen.single (.outboxDelivered member held)).tail (.ticked 1)

theorem failOutbox_moves {outboxId : Nat} {owner errorCode : Option String}
    {leaseVersion : Option Int} :
    OutsideMoves db (failOutbox db outboxId owner leaseVersion errorCode).1 := by
  simp only [failOutbox]
  split
  · exact .refl
  · rename_i row found
    have held := List.find?_some found
    have member := List.mem_of_find?_eq_some found
    obtain rfl := heldBy_self held
    split
    · rename_i delay scheduled
      split at scheduled
      · simp at scheduled
      rename_i policy configured
      split at scheduled
      · rename_i allowed
        exact (Relation.ReflTransGen.single (.outboxRetried _ member held configured allowed.2)).tail
          (.ticked 1)
      · simp at scheduled
    · exact .single (.outboxDied member held)

/-- A call that left a database behind returned something with it. -/
theorem returned_db {Value : Type} {computed : Except SqlError (Db × Value)}
    (same : computed.toOption.map Prod.fst = some later) :
    ∃ value, computed = .ok (later, value) := by
  cases computed with
  | error failure => simp [Except.toOption] at same
  | ok pair =>
      simp only [Except.toOption, Option.map_some, Option.some.injEq] at same
      exact ⟨pair.2, by rw [← same]⟩

theorem execDb_moves {call : Call} (steady : db.Steady)
    (returned : execDb db call = some later) : CallMoves (call.invoked? db) db later := by
  cases call with
  | startProcess flowName businessKey data =>
      obtain ⟨reply, ok⟩ := returned_db returned
      exact .other (.of_reaches (startProcess_reaches steady.calm ok))
  | acceptSignal processId signalType messageId payload =>
      obtain ⟨reply, ok⟩ := returned_db returned
      exact .other (.of_reaches (acceptSignalCall_reaches steady.calm ok))
  | reconcileInbox limit locked =>
      obtain ⟨count, ok⟩ := returned_db returned
      exact .other (.of_steps (reconcileInbox_steps steady.calm ok))
  | claimJobs owner batch leaseMs locked =>
      obtain ⟨claimed, ok⟩ := returned_db returned
      exact .other (.of_steps (claimJobs_steps steady.calm ok))
  | finishJob jobId owner leaseVersion outcome =>
      obtain ⟨reply, ok⟩ := returned_db returned
      obtain ⟨job, _, _, _, reaches⟩ := finishJob_reaches steady.calm ok
      exact .other (.of_reaches reaches)
  | failJob jobId owner leaseVersion errorCode retryable =>
      obtain ⟨reply, ok⟩ := returned_db returned
      obtain ⟨job, _, _, _, reaches⟩ := failJob_reaches steady.calm ok
      exact .other (.of_reaches reaches)
  | work claimed =>
      simp only [execDb] at returned
      cases worked : workTransaction db claimed with
      | error failure => simp [worked, Except.toOption] at returned
      | ok finished =>
          simp only [worked, Except.toOption, Option.some.injEq] at returned
          subst returned
          exact workTransaction_moves steady worked
  | invoke module action version context payload =>
      obtain ⟨envelope, ok⟩ := returned_db returned
      exact invoke_moves steady ok
  | claimOutbox owner limit locked =>
      obtain ⟨claims, ok⟩ := returned_db returned
      exact .other (.of_outside (claimOutbox_moves steady.ledger.outboxIds ok))
  | succeedOutbox outboxId owner leaseVersion providerPaymentId =>
      cases returned
      exact .other (.of_outside succeedOutbox_moves)
  | failOutbox outboxId owner leaseVersion errorCode =>
      cases returned
      exact .other (.of_outside failOutbox_moves)

end Calls

end PaymentWorkflow
