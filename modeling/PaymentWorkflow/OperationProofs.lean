import PaymentWorkflow.ClosingProofs

/-! An operation, the process it is pinned to and the event of its submission, in every state. -/

namespace PaymentWorkflow

def Process.startKey (process : Process) : String × String :=
  (process.flowName, process.businessKey)

def Db.submissions (db : Db) (operationId : Nat) : List OperationEvent :=
  db.payment.operationEvents.filter fun row =>
    row.operationId = operationId ∧ row.eventType = .submitted

def Db.Pinned (db : Db) (operation : Operation) : Prop :=
  match operation.processId with
  | none => operation.status = .created ∧ db.submissions operation.id = []
  | some processId => operation.status ≠ .created ∧
      (∃ event, db.submissions operation.id = [event]) ∧
      ∃ process ∈ db.workflow.processes, process.id = processId ∧ db.StartedFor operation process

structure Db.Pins (db : Db) : Prop where
  startKeys : (db.workflow.processes.map Process.startKey).Nodup
  events : ∀ event ∈ db.payment.operationEvents, event.operationId < db.nextId
  operations : ∀ operation ∈ db.payment.operations, db.Pinned operation
  externals : ∀ external ∈ db.delivery.externalRequests, ∃ operation ∈ db.payment.operations,
    operation.id = external.operationId ∧ operation.processId ≠ none
  inbox : ∀ row ∈ db.delivery.inbox, row.processId < db.nextId

structure Operation.Follows (operation after : Operation) : Prop where
  id : after.id = operation.id
  operationKind : after.operationKind = operation.operationKind
  amount : after.amount = operation.amount
  currency : after.currency = operation.currency
  pinned : ∀ processId, operation.processId = some processId → after.processId = some processId
  closed : operation.status.terminal = true → after.status.terminal = true

def Db.Follows (db later : Db) : Prop :=
  ∀ operation ∈ db.payment.operations, ∃ after ∈ later.payment.operations, operation.Follows after

section Follows

variable {db later : Db}

theorem Operation.Follows.refl (operation : Operation) : operation.Follows operation :=
  ⟨rfl, rfl, rfl, rfl, fun _ pinned => pinned, fun closed => closed⟩

theorem Operation.Follows.trans {first second third : Operation} (left : first.Follows second)
    (right : second.Follows third) : first.Follows third where
  id := right.id.trans left.id
  operationKind := right.operationKind.trans left.operationKind
  amount := right.amount.trans left.amount
  currency := right.currency.trans left.currency
  pinned := fun processId pinned => right.pinned processId (left.pinned processId pinned)
  closed := fun closed => right.closed (left.closed closed)

theorem Db.Follows.of_eq (same : later.payment.operations = db.payment.operations) :
    db.Follows later := fun operation member => ⟨operation, same ▸ member, .refl operation⟩

theorem Db.Follows.trans {third : Db} (left : db.Follows later) (right : later.Follows third) :
    db.Follows third := by
  intro operation member
  obtain ⟨between, inside, first⟩ := left operation member
  obtain ⟨after, last, second⟩ := right between inside
  exact ⟨after, last, first.trans second⟩

theorem processData_congr {operation after : Operation} (follows : operation.Follows after) :
    processData after = processData operation := by
  simp only [processData, operationResult, follows.id, follows.operationKind, follows.amount,
    follows.currency]

theorem Db.StartedFor.follows {operation after : Operation} {process : Process}
    (started : db.StartedFor operation process) (follows : operation.Follows after) :
    db.StartedFor after process where
  key := by rw [follows.id]; exact started.key
  data := by rw [processData_congr follows]; exact started.data
  bound := by rw [follows.operationKind]; exact started.bound

theorem Db.StartedFor.kept {operation : Operation} {process after : Process}
    (started : db.StartedFor operation process) (config : later.config = db.config)
    (same : after.fixed = process.fixed) : later.StartedFor operation after := by
  obtain ⟨_, flow, _, key, data⟩ := Process.fixed_columns same
  exact ⟨key.trans started.key, data.trans started.data, by rw [config, flow]; exact started.bound⟩

theorem Db.Pinned.kept {operation : Operation} (pinned : db.Pinned operation)
    (kept : db.Kept later) (config : later.config = db.config)
    (events : later.submissions operation.id = db.submissions operation.id) :
    later.Pinned operation := by
  unfold Db.Pinned at pinned ⊢
  cases pin : operation.processId with
  | none =>
      rw [pin] at pinned
      rw [events]
      exact pinned
  | some processId =>
      rw [pin] at pinned
      obtain ⟨status, submitted, process, member, id, started⟩ := pinned
      obtain ⟨after, afterMember, same⟩ := kept.process member
      rw [events]
      exact ⟨status, submitted, after, afterMember, (Process.fixed_columns same).1.trans id,
        started.kept config same⟩

end Follows

/-! What the moves of the engine leave of it. -/

section Engine

variable {db later : Db} {processId : Nat}

theorem EngineMove.processes_fixed (move : EngineMove processId db later) (rows : db.Rows) :
    later.fixed.processes = db.fixed.processes ∨
      ∃ process : Process, db.startedProcess? process.flowName process.businessKey = none ∧
        later.fixed.processes = db.fixed.processes ++ [process.fixed] := by
  cases move with
  | @started _ flowName businessKey data version definition absent active defined =>
      refine Or.inr ⟨⟨db.nextId, flowName, version.version, businessKey, .created, none, data⟩,
        absent, ?_⟩
      rw [Db.fixed_placeStep (Db.startRows rows flowName version.version businessKey data).stepBound,
        Db.fixed_insertEvent, Db.fixed_insertProcess]
      rfl
  | ticked | swept | applied => exact Or.inl rfl
  | stored => exact Or.inl (by rw [Db.fixed_insertEvent, Db.fixed_insertSignal])
  | signalled =>
      exact Or.inl (by rw [Db.fixed_placeStep (Db.consumeSignal_rows rows _ _ _ _).stepBound,
        Db.fixed_consumeSignal])
  | leased => exact Or.inl (by rw [Db.fixed_leaseJob])
  | disabled => exact Or.inl (congrArg Fixed.processes Db.fixed_buryJob)
  | finished =>
      exact Or.inl (by rw [Db.fixed_placeStep (Db.completeJob_rows rows _ _ _).stepBound,
        Db.fixed_completeJob])
  | retried => exact Or.inl (congrArg Fixed.processes Db.fixed_scheduleRetry)
  | died => exact Or.inl (congrArg Fixed.processes Db.fixed_buryJob)
  | decided =>
      exact Or.inl (by rw [Db.fixed_placeStep (Db.decide_rows rows _ _ _ _ _ _).stepBound,
        Db.fixed_completeManual]; rfl)

theorem Db.startKeys_fixed (db : Db) :
    db.workflow.processes.map Process.startKey = db.fixed.processes.map Process.startKey := by
  simp [Db.fixed, Function.comp_def, Process.startKey, Process.fixed]

theorem EngineMove.inbox_processes (move : EngineMove processId db later) :
    later.delivery.inbox.map InboxRow.processId = db.delivery.inbox.map InboxRow.processId := by
  cases move with
  | started | signalled | finished | decided => rw [Db.placeStep_delivery]; rfl
  | applied =>
      show (Table.update _ _ _).map _ = _
      rw [Table.map_update]
      exact fun _ => rfl
  | _ => rfl

theorem EngineMove.pins (move : EngineMove processId db later) (sound : db.Sound)
    (pins : db.Pins) : later.Pins where
  startKeys := by
    have before := pins.startKeys
    rw [Db.startKeys_fixed] at before ⊢
    rcases move.processes_fixed sound.rows with same | ⟨process, absent, appended⟩
    · rw [same]
      exact before
    · rw [appended, List.map_append, List.nodup_append]
      refine ⟨before, List.nodup_singleton _, ?_⟩
      rintro key member _ new rfl
      obtain rfl := List.mem_singleton.mp new
      rw [← Db.startKeys_fixed] at member
      obtain ⟨other, otherMember, same⟩ := List.mem_map.mp member
      have missed := List.find?_eq_none.mp absent other otherMember
      simp only [Process.startKey, Process.fixed, Prod.mk.injEq] at same
      exact missed (by simp [same])
  events := by
    rw [move.operations_eq.2]
    exact fun event member => Nat.lt_of_lt_of_le (pins.events event member) move.nextId_le
  operations := by
    rw [move.operations_eq.1]
    intro operation member
    exact (pins.operations operation member).kept (move.kept sound.rows) move.config_eq
      (by rw [Db.submissions, Db.submissions, move.operations_eq.2])
  externals := by
    rw [move.outbox_eq.1, move.operations_eq.1]
    exact pins.externals
  inbox := by
    intro row member
    have inside := List.mem_map_of_mem (f := InboxRow.processId) member
    rw [move.inbox_processes] at inside
    obtain ⟨old, oldMember, same⟩ := List.mem_map.mp inside
    exact same ▸ Nat.lt_of_lt_of_le (pins.inbox old oldMember) move.nextId_le

end Engine

/-! What the writes of the actions leave of it. -/

section Actions

variable {db later : Db}

theorem submissions_append {operationId other : Nat} {eventType : OperationEventType}
    {payloadHash : String} {occurredAt : Time}
    (events : later.payment.operationEvents =
      db.payment.operationEvents ++ [⟨other, eventType, payloadHash, occurredAt⟩]) :
    later.submissions operationId = db.submissions operationId ++
      if other = operationId ∧ eventType = .submitted then
        [⟨other, eventType, payloadHash, occurredAt⟩] else [] := by
  simp only [Db.submissions, events, List.filter_append]
  congr 1
  by_cases hit : other = operationId ∧ eventType = .submitted
  · obtain ⟨rfl, rfl⟩ := hit
    simp
  · simp [hit]

theorem Db.Pins.submissions_fresh (pins : db.Pins) : db.submissions db.nextId = [] := by
  rw [Db.submissions, List.filter_eq_nil_iff]
  intro event member same
  have := pins.events event member
  simp only [decide_eq_true_eq] at same
  omega

/-- The written row is pinned, so what it was before does not matter. -/
theorem Db.Pins.writeStatus (pins : db.Pins) (ledger : db.Ledger) {operation : Operation}
    {status : OperationStatus} {eventType : OperationEventType} {payloadHash : String}
    {processId : Option Nat}
    (member : operation ∈ db.payment.operations) (pin : processId.or operation.processId ≠ none)
    (own : (db.writeStatus operation.id status eventType payloadHash processId).Pinned
      { operation with status, processId := processId.or operation.processId }) :
    (db.writeStatus operation.id status eventType payloadHash processId).Pins where
  startKeys := pins.startKeys
  events := by
    intro event eventMember
    rcases List.mem_append.mp eventMember with old | new
    · exact pins.events event old
    · obtain rfl := List.mem_singleton.mp new
      exact ledger.operationBound operation member
  operations := by
    intro row rowMember
    obtain ⟨old, oldMember, rfl⟩ := Table.mem_update.mp rowMember
    by_cases hit : old.id = operation.id
    · obtain rfl := Table.key_unique ledger.operationIds oldMember member hit
      simpa using own
    · simp only [hit, decide_false, Bool.false_eq_true, if_false]
      refine (pins.operations old oldMember).kept (.refl _) rfl ?_
      rw [@submissions_append db _ _ _ _ _ _ rfl, if_neg (fun both => hit both.1.symm),
        List.append_nil]
  externals := by
    intro external externalMember
    obtain ⟨owner, ownerMember, id, ownerPin⟩ := pins.externals external externalMember
    refine ⟨_, Table.mem_update.mpr ⟨owner, ownerMember, rfl⟩, ?_, ?_⟩
    · split <;> exact id
    · split
      · rename_i same
        obtain rfl := Table.key_unique ledger.operationIds ownerMember member (by simpa using same)
        exact pin
      · exact ownerPin
  inbox := pins.inbox

theorem Db.writeStatus_follows (ledger : db.Ledger) {operation : Operation}
    {status : OperationStatus} {eventType : OperationEventType} {payloadHash : String}
    {processId : Option Nat}
    (member : operation ∈ db.payment.operations)
    (own : operation.Follows
      { operation with status, processId := processId.or operation.processId }) :
    db.Follows (db.writeStatus operation.id status eventType payloadHash processId) := by
  intro row rowMember
  refine ⟨_, Table.mem_update.mpr ⟨row, rowMember, rfl⟩, ?_⟩
  split
  · rename_i same
    obtain rfl := Table.key_unique ledger.operationIds rowMember member (by simpa using same)
    exact own
  · exact .refl row

theorem OutsideMove.pins (move : OutsideMove db later) (sound : db.Sound) (ledger : db.Ledger)
    (pins : db.Pins) : later.Pins := by
  -- the moves that write none of the tables in question
  have apart : ∀ (between : Db), between.workflow = db.workflow → between.config = db.config →
      between.payment.operations = db.payment.operations →
      between.payment.operationEvents = db.payment.operationEvents →
      between.delivery.externalRequests.map ExternalRequest.operationId =
        db.delivery.externalRequests.map ExternalRequest.operationId →
      between.delivery.inbox = db.delivery.inbox → db.nextId ≤ between.nextId →
      between.Pins := by
    intro between workflow config operations events externals inbox bound
    refine ⟨by rw [workflow]; exact pins.startKeys, ?_, ?_, ?_, ?_⟩
    · rw [events]
      exact fun event member => Nat.lt_of_lt_of_le (pins.events event member) bound
    · rw [operations]
      intro operation member
      exact (pins.operations operation member).kept
        (.of_eq (by simp only [Db.fixed, workflow])) config
        (by rw [Db.submissions, Db.submissions, events])
    · rw [operations]
      intro external member
      have inside := List.mem_map_of_mem (f := ExternalRequest.operationId) member
      rw [externals] at inside
      obtain ⟨old, oldMember, same⟩ := List.mem_map.mp inside
      rw [← same]
      exact pins.externals old oldMember
    · rw [inbox]
      exact fun row member => Nat.lt_of_lt_of_le (pins.inbox row member) bound
  cases move with
  | @requested requestId principal currency operationKind amount payloadHash named inRange fresh =>
      have unused := pins.submissions_fresh
      refine ⟨pins.startKeys, ?_, ?_, ?_, fun row member => Nat.lt_succ_of_lt (pins.inbox row member)⟩
      · intro event member
        rcases List.mem_append.mp member with old | new
        · exact Nat.lt_succ_of_lt (pins.events event old)
        · obtain rfl := List.mem_singleton.mp new
          exact Nat.lt_succ_self _
      · intro row member
        have same : ∀ operationId, Db.submissions ((db.insertOperation requestId principal
            operationKind amount currency).insertOperationEvent db.nextId .created
              payloadHash) operationId = db.submissions operationId := by
          intro operationId
          rw [@submissions_append db _ _ _ _ _ _ rfl, if_neg (by simp), List.append_nil]
        rcases List.mem_append.mp member with old | new
        · exact (pins.operations row old).kept (.refl _) rfl (same _)
        · obtain rfl := List.mem_singleton.mp new
          exact ⟨rfl, (same _).trans unused⟩
      · intro external member
        obtain ⟨owner, ownerMember, facts⟩ := pins.externals external member
        exact ⟨owner, List.mem_append_left _ ownerMember, facts⟩
  | @submitted operation processId payloadHash member created unpinned once known =>
      refine pins.writeStatus ledger member (by simp) ?_
      have before := pins.operations operation member
      rw [Db.Pinned, unpinned] at before
      refine ⟨by simp, ?_, ?_⟩
      · rw [@submissions_append db _ _ _ _ _ _ rfl, if_pos ⟨rfl, rfl⟩]
        exact ⟨_, by rw [before.2, List.nil_append]⟩
      · obtain ⟨process, inside, id, started⟩ := known
        exact ⟨process, inside, id, ⟨started.key, started.data, started.bound⟩⟩
  | @prepared operation _ member pinned absent fresh =>
      have bound : ∀ {id : Nat}, id < db.nextId → id < db.nextId + 1 + 1 :=
        fun below => Nat.lt_succ_of_lt (Nat.lt_succ_of_lt below)
      refine ⟨pins.startKeys, fun event inside => bound (pins.events event inside),
        fun row inside => (pins.operations row inside).kept (.refl _) rfl rfl, ?_,
        fun row inside => bound (pins.inbox row inside)⟩
      intro external inside
      rcases List.mem_append.mp inside with old | new
      · exact pins.externals external old
      · obtain rfl := List.mem_singleton.mp new
        exact ⟨operation, member, rfl, pinned⟩
  | @received external messageId bodyHash processId operation outcome body member owner pinned =>
      refine ⟨pins.startKeys, pins.events,
        fun row inside => (pins.operations row inside).kept (.refl _) rfl rfl, ?_, ?_⟩
      · intro changed inside
        obtain ⟨old, oldMember, rfl⟩ := Table.mem_update.mp inside
        obtain ⟨found, foundMember, facts⟩ := pins.externals old oldMember
        refine ⟨found, foundMember, ?_⟩
        split <;> exact facts
      · intro row inside
        rcases List.mem_append.mp inside with old | new
        · exact pins.inbox row old
        · obtain rfl := List.mem_singleton.mp new
          have before := pins.operations operation (Table.lookup_mem owner).1
          rw [Db.Pinned, pinned] at before
          obtain ⟨_, _, process, processMember, rfl, _⟩ := before
          exact sound.rows.processBound process processMember
  | @outboxDelivered row =>
      have externals : (Table.update (fun external => external.id = row.externalRequestId ∧
          external.state = .created) (fun external => { external with state := .sent })
            db.delivery.externalRequests).map ExternalRequest.operationId =
              db.delivery.externalRequests.map ExternalRequest.operationId := by
        rw [Table.map_update]
        exact fun _ => rfl
      exact apart _ rfl rfl rfl rfl externals rfl (Nat.le_refl _)
  | limitDecided | requeued => exact apart _ rfl rfl rfl rfl rfl rfl (Nat.le_succ _)
  | _ => exact apart _ rfl rfl rfl rfl rfl rfl (Nat.le_refl _)

theorem Closes.pinned {operation : Operation} {target : Target} {status : OperationStatus}
    {eventType : OperationEventType} (closes : Closes db operation target status eventType)
    (pins : db.Pins) (ledger : db.Ledger) (member : operation ∈ db.payment.operations) :
    operation.processId ≠ none := by
  have decided : ∀ outcome, db.decided operation outcome = true → operation.processId ≠ none := by
    intro outcome found none
    obtain ⟨row, _, facts⟩ := List.any_eq_true.mp found
    simp [none] at facts
  have applied : ∀ outcome, db.receiptApplied operation outcome = true →
      operation.processId ≠ none := by
    intro outcome found
    simp only [Db.receiptApplied, Option.any_eq_true] at found
    obtain ⟨external, located, _⟩ := found
    obtain ⟨externalMember, owns⟩ := Table.lookup_mem located
    obtain ⟨owner, ownerMember, id, pin⟩ := pins.externals external externalMember
    exact Table.key_unique ledger.operationIds ownerMember member (id.trans owns) ▸ pin
  cases closes with
  | approved found | completedByDecision _ found | rejectedByDecision _ found =>
      exact decided _ found
  | completedByReceipt _ found | rejectedByReceipt _ found => exact applied _ found

theorem CloseMove.pins {target : Target} {operation : Operation}
    (move : CloseMove target operation db later) (ledger : db.Ledger) (pins : db.Pins) :
    later.Pins := by
  cases move with
  | @closed status eventType payloadHash member closes changes =>
      have pin := closes.pinned pins ledger member
      have before := pins.operations operation member
      refine pins.writeStatus ledger member (by simpa using pin) ?_
      obtain ⟨processId, some_⟩ := Option.ne_none_iff_exists'.mp pin
      rw [Db.Pinned, some_] at before
      obtain ⟨_, submitted, process, inside, id, started⟩ := before
      simp only [Db.Pinned, Option.none_or, some_]
      refine ⟨?_, ?_, process, inside, id, ⟨started.key, started.data, started.bound⟩⟩
      · cases closes <;> simp
      · rw [@submissions_append db _ _ _ _ _ _ rfl, if_neg (by cases closes <;> simp), List.append_nil]
        exact submitted

theorem OutsideMove.follows (move : OutsideMove db later) (ledger : db.Ledger) :
    db.Follows later := by
  cases move with
  | requested =>
      exact fun operation member => ⟨operation, List.mem_append_left _ member, .refl operation⟩
  | submitted processId payloadHash member created unpinned =>
      refine Db.writeStatus_follows ledger member ⟨rfl, rfl, rfl, rfl, ?_, ?_⟩
      · intro processId pinned
        rw [unpinned] at pinned
        cases pinned
      · rw [created]
        intro closed
        cases closed
  | _ => exact .of_eq rfl

theorem CloseMove.follows {target : Target} {operation : Operation}
    (move : CloseMove target operation db later) (ledger : db.Ledger) : db.Follows later := by
  cases move with
  | closed payloadHash member closes changes =>
      refine Db.writeStatus_follows ledger member ⟨rfl, rfl, rfl, rfl, fun _ pinned => pinned, ?_⟩
      intro _
      cases closes <;> rfl

end Actions

section Runs

variable {config : Config} {clock : Nat → Time} {digest : String → String}

theorem SystemMoves.pins {db later : Db} (moves : SystemMoves db later) (steady : db.Steady)
    (pins : db.Pins) : later.Pins :=
  moves.invariant Db.Pins
    (fun sound _ pins move => move.pins sound pins)
    (fun sound ledger pins move => move.pins sound ledger pins)
    (fun _ ledger pins move => move.pins ledger pins) steady pins

theorem SystemMoves.follows {db later : Db} (moves : SystemMoves db later) (steady : db.Steady) :
    db.Follows later :=
  moves.invariant db.Follows
    (fun _ _ follows move => follows.trans (.of_eq move.operations_eq.1))
    (fun _ ledger follows move => follows.trans (move.follows ledger))
    (fun _ ledger follows move => follows.trans (move.follows ledger)) steady (.of_eq rfl)

theorem reached_pins (history : List Call) : (reached config clock digest history).db.Pins :=
  (run_moves history _ initial_steady).pins initial_steady (by
    constructor <;> simp [fresh, Db.initial])

end Runs

end PaymentWorkflow
