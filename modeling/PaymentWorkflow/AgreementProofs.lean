import PaymentWorkflow.PaymentEnds
import PaymentWorkflow.HandedProofs

/-!
Operations and the processes they are pinned to, in runs where only the workers run the internal
actions: both end together, and the way the process took is the way the operation went.
-/

namespace PaymentWorkflow

def OperationStatus.log : OperationStatus → List OperationEventType
  | .created => [.created]
  | .processing => [.created, .submitted]
  | .completed => [.created, .submitted, .completed]
  | .rejected => [.created, .submitted, .rejected]

def isLogOf (status : OperationStatus) (types : List OperationEventType) : Prop :=
  types = status.log

structure Db.Meets (db : Db) (operation : Operation) (process : Process) : Prop where
  ended : process.state = .completed ↔ operation.status.terminal = true
  verdict : process.state = .completed →
    (db.view process.id).branching.bind verdict? = some operation.status

structure Db.Agreed (db : Db) : Prop where
  logs : db.Tells isLogOf
  owned : ∀ process ∈ db.workflow.processes, ∃ operation ∈ db.payment.operations,
    operation.processId = some process.id
  meets : ∀ operation ∈ db.payment.operations, ∀ process ∈ db.workflow.processes,
    operation.processId = some process.id → db.Meets operation process

section Unworked

variable {db later : Db} {operation : Operation} {process : Process}

theorem Db.Pins.startedFor (pins : db.Pins) (rows : db.Rows)
    (member : operation ∈ db.payment.operations) (inside : process ∈ db.workflow.processes)
    (pin : operation.processId = some process.id) : db.StartedFor operation process := by
  have pinned := pins.operations operation member
  simp only [Db.Pinned, pin] at pinned
  obtain ⟨_, _, other, otherMember, id, started⟩ := pinned
  obtain rfl := Table.key_unique rows.processIds otherMember inside id
  exact started

theorem Db.StartedFor.pays (started : db.StartedFor operation process) :
    db.config.pays process.flowName = true := by
  obtain ⟨binding, found, named⟩ := started.bound
  exact List.any_eq_true.mpr ⟨binding, List.mem_of_find?_eq_some found, by simp [named]⟩

theorem OtherMoves.told {tells : OperationStatus → List OperationEventType → Prop}
    (moves : OtherMoves db later) (steady : db.Steady) (pins : db.Pins) (told : db.Tells tells)
    (first : tells .created [.created])
    (second : ∀ types, tells .created types → tells .processing (types ++ [.submitted])) :
    later.Tells tells := by
  induction moves with
  | refl => exact told
  | tail earlier move ih =>
      have before := OtherMoves.system earlier
      rcases move with ⟨processId, reaches⟩ | outside
      · exact ih.of_eq reaches.moves.operations_eq.1 reaches.moves.operations_eq.2
      · exact outside.told ih (before.pins steady pins) (before.steady steady).ledger first second

theorem OtherMoves.terminal (moves : OtherMoves db later) :
    ∀ row ∈ later.payment.operations, row.status.terminal = true →
      row ∈ db.payment.operations := by
  induction moves with
  | refl => exact fun _ member _ => member
  | tail _ move ih =>
      exact fun row member closed => ih row (OtherMove.terminal move row member closed) closed

theorem Db.Agreed.unworked (agreed : db.Agreed) (steady : db.Steady) (pins : db.Pins)
    (flows : db.config.PaymentFlows) (unworked : db.Unworked later) : later.Agreed := by
  have moves := OtherMoves.system unworked.moves
  have after := moves.steady steady
  have afterPins := moves.pins steady pins
  have rows := steady.calm.sound.rows
  have follows := moves.follows steady
  refine ⟨unworked.moves.told steady pins agreed.logs rfl (by rintro types rfl; rfl), ?_, ?_⟩
  · intro process member
    rcases unworked.started process member with ⟨before, beforeMember, same⟩ | owned
    · obtain ⟨operation, inside, pin⟩ := agreed.owned before beforeMember
      obtain ⟨kept, keptMember, follow⟩ := follows operation inside
      exact ⟨kept, keptMember, same ▸ follow.pinned _ pin⟩
    · exact owned
  intro operation member process inside pin
  have config := moves.config_eq
  have pays : db.config.pays process.flowName = true := by
    rw [← config]
    exact (afterPins.startedFor after.calm.sound.rows member inside pin).pays
  have here : (later.view process.id).process = some process :=
    after.calm.sound.rows.process? inside
  -- an operation that is closed was closed before, with its process
  have closed : operation.status.terminal = true → process.state = .completed ∧
      (later.view process.id).branching.bind verdict? = some operation.status := by
    intro terminal
    have old := unworked.moves.terminal operation member terminal
    have pinned := pins.operations operation old
    simp only [Db.Pinned, pin] at pinned
    obtain ⟨_, _, before, beforeMember, id, _⟩ := pinned
    have meets := agreed.meets operation old before beforeMember (by rw [id]; exact pin)
    have completed := meets.ended.mpr terminal
    have beforePays := (pins.startedFor rows old beforeMember (by rw [id]; exact pin)).pays
    obtain ⟨found, steps⟩ := (moves.ends steady flows beforePays completed).stays
      (rows.process? beforeMember)
    rw [id, here, Option.some.injEq] at found
    subst found
    refine ⟨completed, ?_⟩
    rw [View.branching, steps]
    exact meets.verdict completed
  have ended : process.state = .completed → operation.status.terminal = true := by
    intro completed
    have found := (moves.ends steady flows pays completed).before unworked.succeeded here
    obtain ⟨beforeMember, _⟩ := Table.lookup_mem found
    obtain ⟨owner, ownerMember, ownerPin⟩ := agreed.owned process beforeMember
    have terminal := (agreed.meets owner ownerMember process beforeMember ownerPin).ended.mp
      completed
    obtain ⟨kept, keptMember, follow⟩ := follows owner ownerMember
    have keptPin := follow.pinned _ ownerPin
    obtain rfl := afterPins.apart after keptMember member (keptPin.trans pin.symm)
      (by rw [keptPin]; simp)
    exact follow.closed terminal
  exact ⟨⟨ended, fun terminal => (closed terminal).1⟩, fun completed => (closed (ended completed)).2⟩

end Unworked

section Work

variable {db later : Db} {operation : Operation} {process : Process} {claimed : ClaimedJob}

theorem closeOperation_writes {status : OperationStatus} {eventType : OperationEventType}
    {text : String} {envelope : Envelope} {payload : Json}
    (found : db.payment.operation? operation.id = some operation)
    (changes : operation.status ≠ status) (event : eventType ≠ .submitted)
    (returned : closeOperation db payload operation status eventType text = .ok (later, envelope)) :
    later = db.writeStatus operation.id status eventType (db.digest payload.render) none := by
  obtain ⟨closed, written, rest⟩ := Runs.bind_eq_ok.mp returned
  cases rest
  simp only [setStatus, found, changes, event, if_false, false_and] at written
  exact (Except.ok.inj written).symm

theorem withEvidence_ran {receipt : ReceiptOutcome} {decision : DecisionOutcome}
    {receiptMissing decisionMissing outcome : String} {result : Json}
    {body : Except SqlError (Db × Envelope)}
    (returned : withEvidence db operation receipt decision receiptMissing decisionMissing body =
      .ok (later, .ok outcome result)) : body = .ok (later, .ok outcome result) := by
  simp only [withEvidence] at returned
  split at returned <;> split at returned
  · exact returned
  · cases returned
  · exact returned
  · cases returned

theorem runTarget_closes {stepKey : String} {target : Target} {status : OperationStatus}
    (closes : closingAction? stepKey = some (target, status)) {context : Context}
    {payload result : Json} {outcome : String} (located : db.operationOf? payload = some operation)
    (ran : runTarget target db context payload = .ok (later, .ok outcome result)) :
    ∃ eventType text, eventType ≠ .submitted ∧ status.terminal = true ∧
      status.log = OperationStatus.processing.log ++ [eventType] ∧
        closeOperation db payload operation status eventType text = .ok (later, .ok outcome result) := by
  simp only [closingAction?] at closes
  split at closes <;> cases closes
  · rw [runTarget, completeV1, withOperation_found located] at ran
    exact ⟨.completed, _, by simp, rfl, rfl, withEvidence_ran ran⟩
  · rw [runTarget, approveV1, withOperation_found located] at ran
    split at ran
    · exact ⟨.completed, _, by simp, rfl, rfl, ran⟩
    · cases ran
  · rw [runTarget, rejectV1, withOperation_found located] at ran
    exact ⟨.rejected, _, by simp, rfl, rfl, withEvidence_ran ran⟩

theorem runTarget_leads {target : Target} (leads : target ∈ Config.leadingTargets)
    {context : Context} {payload : Json} {envelope : Envelope}
    (ran : runTarget target db context payload = .ok (later, envelope)) : OutsideMoves db later := by
  cases target with
  | validateV1 => exact validateV1_moves ran
  | prepareExternalV1 => exact prepareExternalV1_moves ran
  | applyReceiptV1 => exact applyReceiptV1_moves ran
  | checkLimitV1 => exact checkLimitV1_moves ran
  | _ => simp [Config.leadingTargets] at leads

theorem buildPayload_operation {task : FlowTask}
    (mapping : task.inputMapping = [("/operationId", "/operationId")])
    (constants : task.inputConstants = []) :
    buildPayload (processData operation) task =
      .ok (.object [("operationId", .text (uuidText operation.id))]) := by
  rw [buildPayload, mapping, constants]
  rfl

theorem operationOf?_operation (ledger : db.Ledger) (member : operation ∈ db.payment.operations) :
    db.operationOf? (.object [("operationId", .text (uuidText operation.id))]) =
      some operation := by
  rw [Db.operationOf?, show (Json.object [("operationId", .text (uuidText operation.id))]).text?
    "operationId" = some (uuidText operation.id) from rfl, Option.bind_some, castUuid_uuidText,
    Option.bind_some]
  exact Table.lookup_of_mem ledger.operationIds member

inductive Acted (db acted : Db) (operation : Operation) (target : Target) (stepKey : String) : Prop
  | leading (leaves : closingAction? stepKey = none) (leads : target ∈ Config.leadingTargets)
      (moves : OutsideMoves db acted)
  | closing {status : OperationStatus} {eventType : OperationEventType} {text : String}
      {changed : Db} {envelope : Envelope} {payload : Json}
      (closes : closingAction? stepKey = some (target, status))
      (event : eventType ≠ .submitted) (terminal : status.terminal = true)
      (log : status.log = OperationStatus.processing.log ++ [eventType])
      (ran : closeOperation db payload operation status eventType text = .ok (changed, envelope))
      (recorded : OutsideMoves changed acted)
      (payment : acted.payment = changed.payment)

theorem catalogRow_version {config : Config} {module action : String} {version : Int}
    {row : ActionRow} (found : catalogRow config module action (some version) = .ok row) :
    config.action? module action version = some row := by
  simp only [catalogRow] at found
  split at found
  · cases found
  · rename_i located
    split at found
    · cases found
      exact located
    · cases found

theorem runAction_acts (agreed : db.Agreed) (steady : db.Steady) (pins : db.Pins)
    (flows : db.config.PaymentFlows) {acted : Db} {job : Job} {step : StepInstance}
    {outcome : String} (handed : Handed db claimed job step process)
    (returned : runAction db claimed = .ok (acted, outcome)) :
    ∃ operation ∈ db.payment.operations, operation.processId = some process.id ∧
      ∃ target, (Call.work claimed).invoked? db = some (target, operation) ∧
        Acted db acted operation target step.stepKey := by
  obtain ⟨operation, member, pin⟩ := agreed.owned process handed.processMember
  refine ⟨operation, member, pin, ?_⟩
  have started := pins.startedFor steady.calm.sound.rows member handed.processMember pin
  obtain ⟨definition, task, same⟩ := handed.task
  have row := List.find?_some task
  simp only [decide_eq_true_eq] at row
  have performs := flows.tasks definition (List.mem_of_find?_eq_some task)
    (by rw [row.1]; exact started.pays)
  simp only [Config.performs, same, row.2.2, Bool.and_eq_true, decide_eq_true_eq,
    List.isEmpty_iff, Option.all_eq_true] at performs
  obtain ⟨⟨mapping, constants⟩, performs⟩ := performs
  have payload := @buildPayload_operation operation _ mapping constants
  obtain ⟨built, result, read, invoked, _⟩ := runAction_cases returned
  rw [← handed.data, started.data] at read
  obtain rfl := Except.ok.inj (read.symm.trans payload)
  have located := operationOf?_operation steady.ledger member
  rcases invoke_cases invoked with
    ⟨_, _, _, failed⟩ | ⟨action, target, changed, found, known, allowed, ran, recorded⟩
  · cases failed
  refine ⟨target, ?_, ?_⟩
  · simp [Call.invoked?, ← handed.data, started.data, payload, Except.toOption, invoked?, found,
      known, located, allowed]
  have performed := performs action (catalogRow_version found) target known
  cases closes : closingAction? step.stepKey with
  | none =>
      simp only [closes, decide_eq_true_eq] at performed
      exact .leading closes performed
        ((runTarget_leads performed ran).trans (recordDispatch_moves recorded))
  | some closing =>
      simp only [closes, decide_eq_true_eq] at performed
      subst performed
      obtain ⟨eventType, text, event, terminal, log, wrote⟩ := runTarget_closes closes located ran
      exact .closing closes event terminal log wrote (recordDispatch_moves recorded)
        (recordDispatch_same recorded).2

theorem Db.Agreed.finished {acted : Db} (agreed : db.Agreed) (sound : acted.Sound)
    (workflow : acted.workflow = db.workflow) (follows : db.Follows acted)
    (logs : acted.Tells isLogOf) (moves : EngineMoves process.id acted later)
    (same : acted.SameProcesses later)
    (others : ∀ row ∈ acted.payment.operations, row.processId ≠ some process.id →
      row ∈ db.payment.operations)
    (own : ∀ row ∈ acted.payment.operations, row.processId = some process.id → ∀ after,
      (later.view process.id).process = some after → later.Meets row after) : later.Agreed := by
  have operations := EngineMoves.operations_eq moves
  refine ⟨logs.of_eq operations.1 operations.2, ?_, ?_⟩
  · intro after member
    have key := List.mem_map_of_mem (f := Process.id) member
    rw [same, workflow] at key
    obtain ⟨before, beforeMember, id⟩ := List.mem_map.mp key
    obtain ⟨owner, ownerMember, pin⟩ := agreed.owned before beforeMember
    obtain ⟨kept, keptMember, follow⟩ := follows owner ownerMember
    exact ⟨kept, operations.1 ▸ keptMember, id ▸ follow.pinned _ pin⟩
  intro row member after inside pin
  rw [operations.1] at member
  have here : (later.view after.id).process = some after :=
    (EngineMoves.sound moves sound).rows.process? inside
  by_cases hit : after.id = process.id
  · rw [hit] at here pin
    exact own row member pin after here
  have view : later.view after.id = db.view after.id := by
    rw [EngineMoves.frame moves sound hit, Db.view, workflow]
    rfl
  rw [view] at here
  have meets := agreed.meets row (others row member (by rw [pin]; simpa using hit)) after
    (Table.lookup_mem here).1 pin
  exact ⟨meets.ended, by rw [view]; exact meets.verdict⟩

theorem Acted.workflow_eq {acted : Db} {target : Target} {stepKey : String}
    (acts : Acted db acted operation target stepKey) : acted.workflow = db.workflow := by
  cases acts with
  | leading leaves leads moves => exact moves.workflow_eq
  | closing closes event terminal log ran recorded =>
      obtain ⟨closed, written, rest⟩ := Runs.bind_eq_ok.mp ran
      cases rest
      exact recorded.workflow_eq.trans (setStatus_workflow written)

/-- The operation of a process that runs is processed. -/
theorem Db.Agreed.underWay (agreed : db.Agreed) (pins : db.Pins)
    (member : operation ∈ db.payment.operations) (inside : process ∈ db.workflow.processes)
    (pin : operation.processId = some process.id) (running : process.state = .running) :
    operation.status = .processing := by
  have meets := agreed.meets operation member process inside pin
  have pinned := pins.operations operation member
  simp only [Db.Pinned, pin] at pinned
  cases status : operation.status with
  | created => exact absurd status pinned.1
  | processing => rfl
  | completed | rejected =>
      rw [meets.ended.mpr (by rw [status]; rfl)] at running
      cases running

structure Worked (db acted later : Db) (claimed : ClaimedJob) (operation : Operation)
    (process : Process) (step : StepInstance) (target : Target) : Prop where
  member : operation ∈ db.payment.operations
  inside : process ∈ db.workflow.processes
  pin : operation.processId = some process.id
  running : process.state = .running
  task : ∃ row ∈ db.config.taskDefinitions, row.flowName = process.flowName ∧
    row.stepKey = step.stepKey
  invoked : (Call.work claimed).invoked? db = some (target, operation)
  moves : SystemMoves db acted
  acts : Acted db acted operation target step.stepKey
  engine : EngineMoves process.id acted later
  same : acted.SameProcesses later
  finishes : later.Finishes process.id step.stepKey

theorem workTransaction_works (agreed : db.Agreed) (steady : db.Steady) (pins : db.Pins)
    (trailed : db.Trailed) (flows : db.config.PaymentFlows) (handed : db.HasHanded claimed)
    (returned : workTransaction db claimed = .ok later) :
    ∃ acted operation process step target,
      Worked db acted later claimed operation process step target := by
  obtain ⟨job, step, process, handed⟩ := handed
  obtain ⟨acted, outcome, reply, ran, completed⟩ := workTransaction_cases returned
  obtain ⟨operation, member, pin, target, invoked, acts⟩ :=
    runAction_acts agreed steady pins flows handed ran
  have rows := steady.calm.sound.rows
  have moves := (runAction_moves steady ran).system
  have config := moves.config_eq
  have workflow := acts.workflow_eq
  have actedTrailed : acted.Trailed := by
    intro processId
    rw [config, Db.view, workflow]
    exact trailed processId
  obtain ⟨other, otherMember, runner, runnerMember, current, currentMember, jobKey, owns, runs,
    running, engine, finishes⟩ := finishJob_finishes (moves.steady steady).calm actedTrailed
      (by rw [config]; exact flows) completed
  -- the job the worker finishes is the one it was handed
  rw [workflow] at otherMember runnerMember currentMember
  obtain rfl := Table.key_unique rows.jobIds otherMember handed.jobMember
    (jobKey.trans handed.jobId.symm)
  obtain rfl := Table.key_unique rows.processIds runnerMember handed.processMember
    (owns.trans handed.owns.symm)
  obtain rfl := Table.key_unique rows.stepIds currentMember handed.stepMember
    (runs.trans handed.runs.symm)
  have started := pins.startedFor rows member handed.processMember pin
  obtain ⟨definition, task, _⟩ := handed.task
  have row := List.find?_some task
  simp only [decide_eq_true_eq] at row
  exact ⟨acted, operation, runner, current, target, member, runnerMember, pin, running,
    ⟨definition, List.mem_of_find?_eq_some task, row.1, row.2.2⟩, invoked, moves, acts, engine,
    finishJob_sameProcesses completed, finishes (by rw [config]; exact started.pays)⟩

theorem Db.Agreed.worked (agreed : db.Agreed) (steady : db.Steady) (pins : db.Pins)
    (flows : db.config.PaymentFlows) {acted : Db} {step : StepInstance} {target : Target}
    (worked : Worked db acted later claimed operation process step target) : later.Agreed := by
  have after := worked.moves.steady steady
  have workflow := worked.acts.workflow_eq
  have finishes := worked.finishes
  cases worked.acts with
  | leading leaves leads outside =>
      have unworked : db.Unworked acted := by
        refine ⟨.of_outside outside, ?_, outside.pinsStarted⟩
        simp only [Db.succeeded, workflow]
        exact fun _ done => done
      have between := agreed.unworked steady pins flows unworked
      refine between.finished after.calm.sound rfl (.of_eq rfl) between.logs worked.engine
        worked.same (fun _ inside _ => inside) ?_
      intro row inside rowPin last found
      have under := finishes last found
      rw [leaves] at under
      have open_ : row.status.terminal ≠ true := by
        intro terminal
        have ended := (between.meets row inside process (workflow ▸ worked.inside) rowPin).ended.mpr
          terminal
        rw [worked.running] at ended
        cases ended
      exact ⟨⟨fun ended => absurd ended under, fun terminal => absurd terminal open_⟩,
        fun ended => absurd ended under⟩
  | @closing status eventType text changed envelope payload closes event terminal log wrote
      recorded payment =>
      have open_ := agreed.underWay pins worked.member worked.inside worked.pin worked.running
      obtain rfl := closeOperation_writes
        (Table.lookup_of_mem steady.ledger.operationIds worked.member)
        (by rw [open_]; rintro rfl; cases terminal) event wrote
      have logs : (db.writeStatus operation.id status eventType (db.digest payload.render)
          none).Tells isLogOf := by
        refine agreed.logs.writeStatus steady.ledger worked.member ?_
        rintro types rfl
        rw [open_]
        exact log.symm
      refine agreed.finished after.calm.sound workflow (worked.moves.follows steady)
        (logs.of_eq (by rw [payment]) (by rw [payment])) worked.engine worked.same ?_ ?_
      · intro row inside apart
        rw [payment] at inside
        obtain ⟨old, oldMember, rfl⟩ := Table.mem_update.mp inside
        by_cases hit : old.id = operation.id
        · obtain rfl := Table.key_unique steady.ledger.operationIds oldMember worked.member hit
          simp [worked.pin] at apart
        · simpa [hit] using oldMember
      · intro row inside rowPin last found
        have ending := finishes last found
        rw [closes] at ending
        rw [payment] at inside
        obtain ⟨old, oldMember, rfl⟩ := Table.mem_update.mp inside
        by_cases hit : old.id = operation.id
        · simp only [hit, decide_true, if_true] at rowPin ⊢
          refine ⟨⟨fun _ => terminal, fun _ => ending.1⟩, fun _ => ?_⟩
          rw [(Table.lookup_mem found).2]
          exact ending.2
        · simp only [hit, decide_false, Bool.false_eq_true, if_false] at rowPin
          have equal := pins.apart steady oldMember worked.member (rowPin.trans worked.pin.symm)
            (by rw [rowPin]; simp)
          exact absurd (congrArg Operation.id equal) hit

end Work

section Runs

variable {clock : Nat → Time} {digest : String → String}

structure Proper (system : System) : Prop where
  steady : system.db.Steady
  pins : system.db.Pins
  trailed : system.db.Trailed
  flows : system.db.config.PaymentFlows
  handed : ∀ record ∈ system.handed, system.db.HasHanded record
  agreed : system.db.Agreed

/-- What an ordinary call does: a worker's transaction, or nothing that only workers do. -/
inductive Ordinarily (db later : Db) : Prop
  | unworked (unworked : db.Unworked later)
  | worked {acted : Db} {claimed : ClaimedJob} {operation : Operation} {process : Process}
      {step : StepInstance} {target : Target}
      (works : Worked db acted later claimed operation process step target)
      (moves : CallMoves ((Call.work claimed).invoked? db) db later)

theorem step_ordinarily {system : System} (proper : Proper system) {call : Call}
    (ordinary : call.ordinary = true) : Ordinarily system.db (step system call).db := by
  have steady := proper.steady
  have unchanged : Ordinarily system.db system.db :=
    .unworked ⟨.refl, fun _ done => done, Db.SameProcesses.pinsStarted rfl⟩
  by_cases enabled : call.enabled system = true
  swap
  · rw [step, if_neg enabled]
    exact unchanged
  rw [step, if_pos enabled]
  cases returned : execDb system.db call with
  | none => exact unchanged
  | some later =>
      by_cases work : ∃ claimed, call = .work claimed
      · obtain ⟨claimed, rfl⟩ := work
        have member : claimed ∈ system.handed := by simpa [Call.enabled] using enabled
        have moves := execDb_moves steady returned
        simp only [execDb] at returned
        cases worked : workTransaction system.db claimed with
        | error failure => simp [worked, Except.toOption] at returned
        | ok finished =>
            simp only [worked, Except.toOption, Option.some.injEq] at returned
            subst returned
            obtain ⟨acted, operation, process, current, target, works⟩ :=
              workTransaction_works proper.agreed steady proper.pins proper.trailed proper.flows
                (proper.handed claimed member) worked
            exact .worked works moves
      · have notWork : ∀ claimed, call ≠ .work claimed := fun claimed same => work ⟨claimed, same⟩
        exact .unworked (execDb_unworked steady proper.flows.guarded ordinary notWork returned)

theorem reached_proper (config : Config) (flows : config.PaymentFlows) (calls : List Call)
    (ordinary : ∀ call ∈ calls, call.ordinary = true) :
    Proper (reached config clock digest calls) := by
  refine ⟨reached_steady calls, reached_pins calls, reached_trailed calls, ?_,
    reached_handed config clock digest calls, ?_⟩
  · rw [reached_config]
    exact flows
  induction calls using List.reverseRecOn with
  | nil => exact ⟨(by rintro operation ⟨⟩), (by rintro process ⟨⟩), by rintro operation ⟨⟩⟩
  | append_singleton done call ih =>
      have agreed := ih fun other member => ordinary other (List.mem_append_left _ member)
      have proper : Proper (reached config clock digest done) := by
        refine ⟨reached_steady done, reached_pins done, reached_trailed done, ?_,
          reached_handed config clock digest done, agreed⟩
        rw [reached_config]
        exact flows
      rw [reached_step]
      cases step_ordinarily proper (ordinary call (by simp)) with
      | unworked unworked => exact agreed.unworked proper.steady proper.pins proper.flows unworked
      | worked works => exact agreed.worked proper.steady proper.pins proper.flows works

structure Db.Consistent (db : Db) (operation : Operation) : Prop where
  log : db.eventTypes operation.id = operation.status.log
  unpinned : operation.processId = none ↔ operation.status = .created
  process : ∀ processId ∈ operation.processId, ∃ process ∈ db.workflow.processes,
    process.id = processId ∧ db.Meets operation process

theorem Db.Agreed.consistent {db : Db} (agreed : db.Agreed) (pins : db.Pins)
    {operation : Operation} (member : operation ∈ db.payment.operations) :
    db.Consistent operation := by
  have pinned := pins.operations operation member
  refine ⟨agreed.logs operation member, ?_, ?_⟩
  · cases pin : operation.processId with
    | none =>
        simp only [Db.Pinned, pin] at pinned
        simp [pinned.1]
    | some processId =>
        simp only [Db.Pinned, pin] at pinned
        simp [pinned.1]
  · intro processId pin
    rw [Option.mem_def] at pin
    simp only [Db.Pinned, pin] at pinned
    obtain ⟨_, _, process, inside, id, _⟩ := pinned
    exact ⟨process, inside, id, agreed.meets operation member process inside (by rw [id]; exact pin)⟩

/-- In runs where the internal actions are left to the workers, an operation is closed exactly when
its process is completed, with the status the branching step decided, and its events are those of
its status. -/
theorem payments_agree (clock : Nat → Time) (digest : String → String) (calls : List Call)
    (ordinary : ∀ call ∈ calls, call.ordinary = true) :
    ∀ operation ∈ (reached Seed.config clock digest calls).db.payment.operations,
      (reached Seed.config clock digest calls).db.Consistent operation := by
  intro operation member
  have proper := @reached_proper clock digest Seed.config Seed.paymentFlows calls ordinary
  exact proper.agreed.consistent proper.pins member

end Runs

namespace Seed

def completed : List Call := prepared ++ [
  receipt "first" (uuidText 10) "COMPLETED", .reconcileInbox (some 100) fun _ => false,
  claim,
  .work (claimed 14 13 16 (internal "apply_receipt" "apply_receipt" ⟨some 2, [200]⟩)
    ["COMPLETED", "REJECTED"]),
  claim,
  .work (claimed 18 17 20 (internal "complete_operation" "complete" ⟨some 2, [200]⟩)
    ["COMPLETED"])]

end Seed

theorem payments_agree_completed :
    (seeded Seed.completed).db.Consistent (Seed.closedOperation .paymentExecution .completed) :=
  payments_agree (fun tick => (tick : Int)) id Seed.completed (by decide +kernel)
    (Seed.closedOperation .paymentExecution .completed) (by decide +kernel)

end PaymentWorkflow
