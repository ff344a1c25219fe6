import PaymentWorkflow.SubmitCore
import PaymentWorkflow.OperationProofs

/-! What the statements of a submit find, and what its commit comes to. -/

namespace PaymentWorkflow

open RowLocks

/-! `start_process` for an operation: it finds a process, or can start one. -/

def Db.starts (db : Db) (operation : Operation) : Bool :=
  (db.config.flowBindings.find? fun row => row.operationKind = operation.operationKind).any
    fun binding => isFlowName binding.flowName && (db.activeVersion? binding.flowName).any
      fun version => (db.config.stepDefinition? binding.flowName version.version
        version.map.startStep).isSome

def Db.binds (db : Db) (operation : Operation) (flowName : String) : Prop :=
  ∃ binding, db.config.flowBindings.find? (fun row =>
    row.operationKind = operation.operationKind) = some binding ∧ binding.flowName = flowName

section Start

variable {db later : Db} {operation : Operation} {flowName : String}

theorem Db.binds.unique {other : String} (bound : db.binds operation flowName)
    (same : db.binds operation other) : flowName = other := by
  obtain ⟨binding, found, rfl⟩ := bound
  obtain ⟨second, again, rfl⟩ := same
  rw [Option.some.inj (found.symm.trans again)]

theorem Db.starts_cases (starts : db.starts operation = true) (bound : db.binds operation flowName) :
    isFlowName flowName = true ∧ ∃ version definition, db.activeVersion? flowName = some version ∧
      db.config.stepDefinition? flowName version.version version.map.startStep =
        some definition := by
  obtain ⟨binding, found, rfl⟩ := bound
  simp only [Db.starts, found, Option.any_some, Bool.and_eq_true, Option.any_eq_true] at starts
  obtain ⟨named, version, active, defined⟩ := starts
  obtain ⟨definition, defined⟩ := Option.isSome_iff_exists.mp defined
  exact ⟨named, version, definition, active, defined⟩

theorem Db.starts_of_config (starts : db.starts operation = true)
    (config : later.config = db.config) : later.starts operation = true := by
  simpa only [Db.starts, Db.activeVersion?, config] using starts

theorem Db.binds.of_config (bound : db.binds operation flowName)
    (config : later.config = db.config) : later.binds operation flowName := by
  simpa only [Db.binds, config] using bound

theorem startFor_existing {existing : Process} (named : isFlowName flowName = true)
    (found : db.startedProcess? flowName (uuidText operation.id) = some existing) :
    startFor db operation flowName =
      if existing.data = processData operation then .ok (db, replyTo existing)
      else .error (.startConflict (uuidText operation.id)) := by
  by_cases same : existing.data = processData operation
  · simp [startFor, startProcess, startProcessBody, named, uuidText_ne, found, same_processData,
      same]
  · simp [startFor, startProcess, startProcessBody, named, uuidText_ne, found, same_processData,
      same]

/-- A process that nobody knows yet has neither signals nor messages. -/
theorem enterStep_fresh (steady : db.Steady) (pins : db.Pins) {version : FlowVersion}
    {definition : StepDefinition} (businessKey : String) (data : Json)
    (defined : db.config.stepDefinition? flowName version.version version.map.startStep =
      some definition) :
    enterStep (recursionBound ((db.insertProcess flowName version.version businessKey
      data).insertEvent db.nextId none .processStarted)) ((db.insertProcess flowName version.version
        businessKey data).insertEvent db.nextId none .processStarted) db.nextId
          version.map.startStep =
      .ok (((db.insertProcess flowName version.version businessKey data).insertEvent db.nextId none
        .processStarted).placeStep db.nextId definition) := by
  have rows := Db.startRows steady.calm.sound.rows flowName version.version businessKey data
  have here := @Db.Rows.process? _ rows ⟨db.nextId, flowName, version.version, businessKey,
    .created, none, data⟩ (by simp)
  have unsignalled : ∀ signalType, (((db.insertProcess flowName version.version businessKey
      data).insertEvent db.nextId none .processStarted).placeStep db.nextId
        definition).readySignal? db.nextId signalType = none := by
    intro signalType
    rw [Db.readySignal?, Table.first_eq_none, Db.placeStep_signals]
    rw [List.filter_eq_nil_iff]
    intro signal member facts
    simp only [decide_eq_true_eq] at facts
    obtain ⟨process, owner, owns⟩ := steady.calm.sound.rows.signalProcess member
    have := steady.calm.sound.rows.processBound process owner
    omega
  have uninformed : ∀ signalType, (((db.insertProcess flowName version.version businessKey
      data).insertEvent db.nextId none .processStarted).placeStep db.nextId
        definition).receivedMessage? db.nextId signalType = none := by
    intro signalType
    rw [Db.receivedMessage?, Table.first_eq_none, Db.placeStep_delivery, List.filter_eq_nil_iff]
    intro row member facts
    simp only [decide_eq_true_eq] at facts
    have := pins.inbox row member
    omega
  simp only [recursionBound, enterStep, enterStepBody]
  rw [here]
  simp only [Db.insertEvent_config, Db.insertProcess_config, defined]
  split
  · simp [applyReadySignals, unsignalled, applyInboxForProcess, uninformed, bind, Except.bind]
  · rfl

theorem startFor_absent (steady : db.Steady) (pins : db.Pins)
    (starts : db.starts operation = true) (bound : db.binds operation flowName)
    (absent : db.startedProcess? flowName (uuidText operation.id) = none) :
    ∃ later reply, startFor db operation flowName = .ok (later, reply) := by
  obtain ⟨named, version, definition, active, defined⟩ := Db.starts_cases starts bound
  have entered := enterStep_fresh steady pins (uuidText operation.id) (processData operation) defined
  have move := @EngineMove.started db _ _ (processData operation) _ _ absent active defined
  have inside : Db.placedProcess definition ⟨db.nextId, flowName, version.version,
      uuidText operation.id, .created, none, processData operation⟩ ∈
      (((db.insertProcess flowName version.version (uuidText operation.id)
        (processData operation)).insertEvent db.nextId none .processStarted).placeStep db.nextId
          definition).workflow.processes := by
    rw [Db.placeStep_processes, Table.mem_update]
    exact ⟨⟨db.nextId, flowName, version.version, uuidText operation.id, .created, none,
      processData operation⟩, by simp, by simp⟩
  have found : Workflow.process? _ db.nextId = some _ :=
    (move.sound steady.calm.sound).rows.process? inside
  have ran : startProcessBody db flowName (uuidText operation.id) (processData operation) =
      .ok (((db.insertProcess flowName version.version (uuidText operation.id)
        (processData operation)).insertEvent db.nextId none .processStarted).placeStep db.nextId
          definition, replyTo (Db.placedProcess definition ⟨db.nextId, flowName, version.version,
            uuidText operation.id, .created, none, processData operation⟩)) := by
    simp only [startProcessBody, named, uuidText_ne, absent, active, not_true_eq_false, if_false]
    rw [entered]
    simp only [bind, Except.bind]
    rw [found]
  exact ⟨_, _, by rw [startFor, startProcess, ran]⟩

end Start

/-! What a submit has found out stays so while it goes on. -/

structure Db.Ready (db : Db) (operation : Operation) : Prop where
  steady : db.Steady
  pins : db.Pins
  starts : db.starts operation = true
  current : ∃ current ∈ db.payment.operations, operation.Follows current

def Db.pinnedTo (db : Db) (operation : Operation) (processId : Nat) : Prop :=
  ∃ current ∈ db.payment.operations, current.id = operation.id ∧
    current.processId = some processId

def Db.Found (db : Db) (operation : Operation) (flowName : String) : Option StartReply → Prop
  | none => db.startedProcess? flowName (uuidText operation.id) = none
  | some reply => ∃ process, db.startedProcess? flowName (uuidText operation.id) = some process ∧
      process.data = processData operation ∧ reply.processId = process.id ∧
        reply.flowName = process.flowName ∧ reply.flowVersion = process.flowVersion

def SubmitStage.Holds (db : Db) (operation : Operation) : SubmitStage → Prop
  | .called | .ended _ => True
  | .replaying read processId => operation.Follows read ∧ db.pinnedTo operation processId
  | .starting read flowName | .inserting read flowName =>
      operation.Follows read ∧ db.binds operation flowName
  | .pinning read flowName existing =>
      operation.Follows read ∧ db.binds operation flowName ∧ db.Found operation flowName existing
  | .logging read flowName existing =>
      operation.Follows read ∧ db.binds operation flowName ∧ db.Found operation flowName existing ∧
        db.unprocessed operation.id = true
  | .committing read flowName existing submitted =>
      operation.Follows read ∧ db.binds operation flowName ∧ db.Found operation flowName existing ∧
        if submitted then db.unprocessed operation.id = true ∧ db.submitted operation.id = false
        else existing.isSome = true ∧ ∃ processId, db.pinnedTo operation processId

section Found

variable {db later : Db} {operation : Operation} {flowName : String}

theorem Db.Ready.moved (ready : db.Ready operation) (moves : SystemMoves db later) :
    later.Ready operation where
  steady := moves.steady ready.steady
  pins := moves.pins ready.steady ready.pins
  starts := Db.starts_of_config ready.starts moves.config_eq
  current := by
    obtain ⟨current, member, follows⟩ := ready.current
    obtain ⟨after, afterMember, onward⟩ := moves.follows ready.steady current member
    exact ⟨after, afterMember, follows.trans onward⟩

theorem Db.Ready.bound (ready : db.Ready operation) : ∃ flowName, db.binds operation flowName := by
  have starts := ready.starts
  simp only [Db.starts, Option.any_eq_true] at starts
  obtain ⟨binding, found, _⟩ := starts
  exact ⟨binding.flowName, binding, found, rfl⟩

theorem Db.startedProcess?_key {businessKey : String} {process : Process}
    (found : db.startedProcess? flowName businessKey = some process) :
    process ∈ db.workflow.processes ∧ process.startKey = (flowName, businessKey) := by
  have facts := List.find?_some found
  simp only [decide_eq_true_eq] at facts
  exact ⟨List.mem_of_find?_eq_some found, Prod.ext facts.1 facts.2⟩

theorem Db.Pins.startedProcess? (pins : db.Pins) {process : Process}
    (member : process ∈ db.workflow.processes) :
    db.startedProcess? process.flowName process.businessKey = some process := by
  cases found : db.startedProcess? process.flowName process.businessKey with
  | none => exact absurd (List.find?_eq_none.mp found process member) (by simp)
  | some other =>
      obtain ⟨otherMember, same⟩ := Db.startedProcess?_key found
      rw [Table.key_unique pins.startKeys otherMember member same]

theorem Db.Ready.startedProcess?_moved (ready : db.Ready operation) (moves : SystemMoves db later)
    {businessKey : String} {process : Process}
    (found : db.startedProcess? flowName businessKey = some process) :
    ∃ after, later.startedProcess? flowName businessKey = some after ∧
      after.fixed = process.fixed := by
  obtain ⟨member, key⟩ := Db.startedProcess?_key found
  obtain ⟨after, afterMember, same⟩ := (moves.kept ready.steady).process member
  have columns := Process.fixed_columns same
  have again := (ready.moved moves).pins.startedProcess? afterMember
  simp only [Process.startKey, Prod.mk.injEq] at key
  rw [columns.2.1, columns.2.2.2.1, key.1, key.2] at again
  exact ⟨after, again, same⟩

theorem Db.Found.moved {existing : Option StartReply} (ready : db.Ready operation)
    (moves : SystemMoves db later) (found : db.Found operation flowName existing)
    (unchanged : existing = none →
      (SubmitRow.process flowName (uuidText operation.id)).same db later = true) :
    later.Found operation flowName existing := by
  cases existing with
  | none =>
      have same := unchanged rfl
      simp only [SubmitRow.same, decide_eq_true_eq] at same
      change db.startedProcess? flowName (uuidText operation.id) = none at found
      rw [found] at same
      exact Option.map_eq_none_iff.mp same.symm
  | some reply =>
      obtain ⟨process, started, data, id, flow, version⟩ := found
      obtain ⟨after, again, same⟩ := ready.startedProcess?_moved moves started
      obtain ⟨sameId, sameFlow, sameVersion, _, sameData⟩ := Process.fixed_columns same
      exact ⟨after, again, sameData.trans data, id.trans sameId.symm, flow.trans sameFlow.symm,
        version.trans sameVersion.symm⟩

theorem Db.pinnedTo.moved {processId : Nat} (pinned : db.pinnedTo operation processId)
    (steady : db.Steady) (moves : SystemMoves db later) : later.pinnedTo operation processId := by
  obtain ⟨current, member, id, pin⟩ := pinned
  obtain ⟨after, afterMember, follows⟩ := moves.follows steady current member
  exact ⟨after, afterMember, follows.id.trans id, follows.pinned _ pin⟩

theorem Db.Ready.operation? (ready : db.Ready operation) :
    ∃ current, db.payment.operation? operation.id = some current ∧
      current ∈ db.payment.operations ∧ operation.Follows current := by
  obtain ⟨current, member, follows⟩ := ready.current
  refine ⟨current, ?_, member, follows⟩
  rw [← follows.id]
  exact Table.lookup_of_mem ready.steady.ledger.operationIds member

theorem Db.submitted_iff {operationId : Nat} :
    db.submitted operationId = false ↔ db.submissions operationId = [] := by
  simp [Db.submitted, Db.submissions, List.filter_eq_nil_iff]

theorem Db.Ready.unsubmitted (ready : db.Ready operation)
    (unsubmitted : db.submitted operation.id = false) :
    ∃ current ∈ db.payment.operations, operation.Follows current ∧ current.processId = none ∧
      current.status = .created := by
  obtain ⟨current, member, follows⟩ := ready.current
  refine ⟨current, member, follows, ?_⟩
  have none := Db.submitted_iff.mp unsubmitted
  rw [← follows.id] at none
  have pinned := ready.pins.operations current member
  unfold Db.Pinned at pinned
  split at pinned
  · rename_i unpinned
    exact ⟨unpinned, pinned.1⟩
  · obtain ⟨event, one⟩ := pinned.2.1
    rw [none] at one
    cases one

end Found

/-! The one process of a pinned operation, and the one event of its submission. -/

def Db.processesOf (db : Db) (operation : Operation) : List Process :=
  db.workflow.processes.filter fun row => row.businessKey = uuidText operation.id ∧
    (db.config.flowBindings.find? fun binding =>
      binding.operationKind = operation.operationKind).any fun binding =>
        binding.flowName = row.flowName

def Db.Answered (db : Db) (operation : Operation) (ending : Ending) : Prop :=
  ∃ process, db.processesOf operation = [process] ∧
    (∃ event, db.submissions operation.id = [event]) ∧
    db.pinnedTo operation process.id ∧
    ending = .replied (.ok "PROCESSING" (submitResult operation process.id (some process.flowName)
      (some process.flowVersion)))

section Answered

variable {db later : Db} {operation : Operation} {flowName : String}

theorem Db.processesOf_eq (bound : db.binds operation flowName) :
    db.processesOf operation = db.workflow.processes.filter fun row =>
      row.startKey = (flowName, uuidText operation.id) := by
  obtain ⟨binding, found, rfl⟩ := bound
  unfold Db.processesOf
  congr 1
  funext row
  simp only [found, Option.any_some, Process.startKey, Prod.mk.injEq, decide_eq_decide,
    decide_eq_true_eq]
  constructor
  · rintro ⟨key, flow⟩
    exact ⟨flow.symm, key⟩
  · rintro ⟨flow, key⟩
    exact ⟨key, flow.symm⟩

theorem Db.Ready.processesOf_le (ready : db.Ready operation) :
    (db.processesOf operation).length ≤ 1 := by
  obtain ⟨flowName, bound⟩ := ready.bound
  rw [Db.processesOf_eq bound]
  exact Table.length_filter_key_le ready.pins.startKeys _

theorem Db.Ready.processesOf_started (ready : db.Ready operation)
    (bound : db.binds operation flowName) {process : Process}
    (started : db.startedProcess? flowName (uuidText operation.id) = some process) :
    db.processesOf operation = [process] := by
  obtain ⟨member, key⟩ := Db.startedProcess?_key started
  rw [Db.processesOf_eq bound, ← key]
  exact Table.filter_key ready.pins.startKeys member

theorem Db.Ready.submissions_le (ready : db.Ready operation) :
    (db.submissions operation.id).length ≤ 1 := by
  obtain ⟨current, member, follows⟩ := ready.current
  have pinned := ready.pins.operations current member
  unfold Db.Pinned at pinned
  rw [← follows.id]
  split at pinned
  · rw [pinned.2]
    exact Nat.zero_le 1
  · obtain ⟨event, one⟩ := pinned.2.1
    rw [one]
    exact Nat.le_refl 1

theorem Db.Ready.pinned_started (ready : db.Ready operation) (bound : db.binds operation flowName)
    {processId : Nat} (pinned : db.pinnedTo operation processId) :
    ∃ process, db.startedProcess? flowName (uuidText operation.id) = some process ∧
      process.id = processId ∧ ∃ event, db.submissions operation.id = [event] := by
  obtain ⟨current, member, id, pin⟩ := pinned
  obtain ⟨other, otherMember, follows⟩ := ready.current
  obtain rfl := Table.key_unique ready.steady.ledger.operationIds member otherMember
    (id.trans follows.id.symm)
  have facts := ready.pins.operations current member
  rw [Db.Pinned, pin] at facts
  obtain ⟨_, submitted, process, inside, sameId, key, _, binding, boundTo, flow⟩ := facts
  have started := ready.pins.startedProcess? inside
  rw [follows.operationKind] at boundTo
  rw [key, flow, follows.id, Db.binds.unique ⟨binding, boundTo, rfl⟩ bound] at started
  rw [follows.id] at submitted
  exact ⟨process, started, sameId, submitted⟩

theorem Db.Ready.answered (ready : db.Ready operation) {process : Process}
    (bound : db.binds operation flowName)
    (started : db.startedProcess? flowName (uuidText operation.id) = some process)
    {processId : Nat} (pinned : db.pinnedTo operation processId) :
    db.Answered operation (.replied (.ok "PROCESSING" (submitResult operation process.id
      (some process.flowName) (some process.flowVersion)))) := by
  obtain ⟨other, again, rfl, submitted⟩ := ready.pinned_started bound pinned
  obtain rfl := Option.some.inj (again.symm.trans started)
  exact ⟨other, ready.processesOf_started bound started, submitted, pinned, rfl⟩

theorem Db.Answered.moved {ending : Ending} (answered : db.Answered operation ending)
    (ready : db.Ready operation) (moves : SystemMoves db later) :
    later.Answered operation ending := by
  obtain ⟨process, only, _, pinned, rfl⟩ := answered
  obtain ⟨flowName, bound⟩ := ready.bound
  obtain ⟨other, started, _⟩ := ready.pinned_started bound pinned
  rw [ready.processesOf_started bound started] at only
  obtain rfl := List.singleton_inj.mp only
  obtain ⟨after, again, same⟩ := ready.startedProcess?_moved moves started
  obtain ⟨sameId, sameFlow, sameVersion, _⟩ := Process.fixed_columns same
  have next := (ready.moved moves).answered (bound.of_config moves.config_eq) again
    (pinned.moved ready.steady moves)
  rwa [sameId, sameFlow, sameVersion] at next

end Answered

/-! The commit of a submit that has pinned the operation. -/

section Commit

variable {db later : Db} {operation read : Operation} {flowName : String}
  {existing : Option StartReply}

structure Db.Started (db started : Db) (operation : Operation) (flowName : String)
    (reply : StartReply) (process : Process) : Prop where
  moves : OtherMoves db started
  operations : started.payment.operations = db.payment.operations
  events : started.payment.operationEvents = db.payment.operationEvents
  member : process ∈ started.workflow.processes
  flow : process.flowName = flowName
  key : process.businessKey = uuidText operation.id
  data : process.data = processData operation
  answers : reply.processId = process.id ∧ reply.flowName = process.flowName ∧
    reply.flowVersion = process.flowVersion

theorem startFor_follows (follows : operation.Follows read) :
    startFor db read flowName = startFor db operation flowName := by
  simp only [startFor, follows.id, processData_congr follows]

theorem Db.Found.started (ready : db.Ready operation) (bound : db.binds operation flowName)
    (follows : operation.Follows read) (found : db.Found operation flowName existing) :
    ∃ started reply process,
      SubmitStage.started db read flowName existing = .ok (started, reply) ∧
      db.Started started operation flowName reply process := by
  cases existing with
  | some reply =>
      obtain ⟨process, here, data, answers⟩ := found
      obtain ⟨member, key⟩ := Db.startedProcess?_key here
      simp only [Process.startKey, Prod.mk.injEq] at key
      exact ⟨db, reply, process, rfl, .refl, rfl, rfl, member, key.1, key.2, data, answers⟩
  | none =>
      obtain ⟨started, reply, returned⟩ :=
        startFor_absent ready.steady ready.pins ready.starts bound found
      have reaches := startProcess_reaches ready.steady.calm returned
      obtain ⟨process, member, answers, flow, key, data⟩ :=
        startProcess_process ready.steady.calm returned
      rw [SubmitStage.started, startFor_follows follows]
      exact ⟨started, reply, process, returned, .of_reaches reaches, reaches.moves.operations_eq.1,
        reaches.moves.operations_eq.2, member, flow, key,
        same_processData.mp data, by rw [← answers]; exact ⟨rfl, rfl, rfl⟩⟩

theorem SubmitStage.commit_submitted (ready : db.Ready operation)
    (bound : db.binds operation flowName) (follows : operation.Follows read)
    (found : db.Found operation flowName existing)
    (unsubmitted : db.submitted operation.id = false) (payload : Json) :
    ∃ later process, commit db payload read flowName existing true =
        .ok (later, .ok "PROCESSING" (submitResult read process.id (some process.flowName)
          (some process.flowVersion))) ∧
      SystemMoves db later ∧
      later.startedProcess? flowName (uuidText operation.id) = some process ∧
      later.pinnedTo operation process.id := by
  obtain ⟨current, currentMember, onward, unpinned, created⟩ := ready.unsubmitted unsubmitted
  obtain ⟨started, reply, process, returned, facts⟩ := found.started ready bound follows
  have between := ready.moved facts.moves.system
  have inside : current ∈ started.payment.operations := by
    rw [facts.operations]
    exact currentMember
  have located : started.payment.operation? current.id = some current :=
    Table.lookup_of_mem between.steady.ledger.operationIds inside
  have once : (started.payment.operationEvents.any fun row =>
      row.operationId = current.id ∧ row.eventType = .submitted) = false := by
    rw [facts.events, onward.id]
    exact unsubmitted
  have known : ∃ process ∈ started.workflow.processes, process.id = reply.processId ∧
      started.StartedFor current process := by
    obtain ⟨binding, boundTo, same⟩ := bound
    refine ⟨process, facts.member, facts.answers.1.symm, ?_, ?_, binding, ?_, ?_⟩
    · rw [onward.id]
      exact facts.key
    · rw [processData_congr onward]
      exact facts.data
    · rw [facts.moves.system.config_eq, onward.operationKind]
      exact boundTo
    · exact facts.flow.trans same.symm
  have written : setStatus started read.id .processing .submitted (db.digest payload.render)
      (some reply.processId) = .ok (started.writeStatus current.id .processing .submitted
        (db.digest payload.render) (some reply.processId)) := by
    rw [follows.id.trans onward.id.symm]
    simp only [setStatus, located, created, once]
    simp [Db.writeStatus]
  have move := OutsideMove.submitted reply.processId (db.digest payload.render) inside created unpinned once known
  have moves : SystemMoves db (started.writeStatus current.id .processing .submitted
      (db.digest payload.render) (some reply.processId)) := facts.moves.system.tail (.inl (.inr move))
  refine ⟨_, process, ?_, moves, ?_, ?_⟩
  · rw [← facts.answers.1, ← facts.answers.2.1, ← facts.answers.2.2]
    simp only [commit, returned, bind, Except.bind, if_true, written]
  · have again := (ready.moved moves).pins.startedProcess? facts.member
    rwa [facts.flow, facts.key] at again
  · refine ⟨_, Table.mem_update.mpr ⟨current, inside, rfl⟩, ?_, ?_⟩
    · simpa using onward.id
    · simpa using facts.answers.1

end Commit

/-! One statement of a submit. -/

def Json.namesOperation (payload : Json) (id : Nat) : Prop :=
  (payload.text? "operationId").bind castUuid = some id

def Db.isClosed (db : Db) (operationId : Nat) : Bool :=
  (db.payment.operation? operationId).any fun row => row.status.terminal

/-- The statements of a submit that raise: `start_process` meets another process under the key
of the operation, or the event of a submission goes to an operation that is closed. -/
def SubmitStage.Strays (db : Db) (operation : Operation) : SubmitStage → Prop
  | .starting _ flowName | .inserting _ flowName => ∃ existing,
      db.startedProcess? flowName (uuidText operation.id) = some existing ∧
        existing.data ≠ processData operation
  | .logging .. => db.isClosed operation.id = true
  | _ => False

namespace SubmitStage

variable {db : Db} {operation read : Operation} {payload : Json} {stage : SubmitStage}

attribute [local simp] perform

theorem submitResult_follows (follows : operation.Follows read) (processId : Nat)
    (flowName : Option String) (flowVersion : Option Int) :
    submitResult read processId flowName flowVersion =
      submitResult operation processId flowName flowVersion := by
  simp only [submitResult, operationResult, follows.id]

structure Goes (db : Db) (operation : Operation) (stage : SubmitStage) (done : Db × SubmitStage) :
    Prop where
  moves : SystemMoves db done.1
  holds : done.2.Holds done.1 operation
  answered : ∀ ending, done.2 = .ended ending → stage ≠ .ended ending →
    done.1.Answered operation ending

theorem Goes.of_running {next : SubmitStage} (holds : next.Holds db operation)
    (running : ∀ ending, next ≠ .ended ending) : Goes db operation stage (db, next) :=
  ⟨.refl, holds, fun ending past => absurd past (running ending)⟩

theorem perform_called (ready : db.Ready operation) (names : payload.namesOperation operation.id) :
    Goes db operation .called (perform db payload .called) := by
  obtain ⟨current, located, member, follows⟩ := ready.operation?
  obtain ⟨content, named, cast⟩ := Option.bind_eq_some_iff.mp names
  have reads : readOperation db payload = .ok current := by
    simp only [readOperation, named, cast, located]
  have pinned := ready.pins.operations current member
  unfold Db.Pinned at pinned
  simp only [perform, reads, afterRead]
  split at pinned
  · rename_i unpinned
    obtain ⟨flowName, binding, found, rfl⟩ := ready.bound
    rw [← follows.operationKind] at found
    simp only [unpinned, pinned.1, found, ne_eq, not_true_eq_false, if_false]
    rw [follows.operationKind] at found
    exact .of_running ⟨follows, binding, found, rfl⟩ nofun
  · rename_i processId pin
    simp only [pin]
    exact .of_running ⟨follows, current, member, follows.id, pin⟩ nofun

theorem perform_replaying (ready : db.Ready operation) {processId : Nat}
    (follows : operation.Follows read) (pinned : db.pinnedTo operation processId) :
    Goes db operation (.replaying read processId)
      (perform db payload (.replaying read processId)) := by
  obtain ⟨flowName, bound⟩ := ready.bound
  obtain ⟨process, started, rfl, _⟩ := ready.pinned_started bound pinned
  have located : db.workflow.process? process.id = some process :=
    ready.steady.calm.sound.rows.process? (Db.startedProcess?_key started).1
  refine ⟨.refl, trivial, ?_⟩
  intro ending past _
  cases past
  rw [located, submitResult_follows follows]
  exact ready.answered bound started pinned

theorem startFor_found {flowName : String} (ready : db.Ready operation)
    (follows : operation.Follows read) (bound : db.binds operation flowName) {existing : Process}
    (found : db.startedProcess? flowName (uuidText operation.id) = some existing) :
    startFor db read flowName = if existing.data = processData operation then
      .ok (db, replyTo existing) else .error (.startConflict (uuidText operation.id)) := by
  rw [startFor_follows follows]
  exact startFor_existing (Db.starts_cases ready.starts bound).1 found

theorem found_replyTo {flowName : String} {existing : Process}
    (found : db.startedProcess? flowName (uuidText operation.id) = some existing)
    (data : existing.data = processData operation) :
    db.Found operation flowName (some (replyTo existing)) :=
  ⟨existing, found, data, rfl, rfl, rfl⟩

theorem perform_starting {flowName : String} (ready : db.Ready operation)
    (follows : operation.Follows read) (bound : db.binds operation flowName)
    (keeps : ¬ (starting read flowName).Strays db operation) :
    Goes db operation (.starting read flowName) (perform db payload (.starting read flowName)) := by
  simp only [perform, follows.id]
  cases found : db.startedProcess? flowName (uuidText operation.id) with
  | none =>
      simp only [Option.isSome_none, Bool.false_eq_true, if_false]
      exact .of_running ⟨follows, bound⟩ nofun
  | some existing =>
      have data : existing.data = processData operation := by
        by_contra differs
        exact keeps ⟨existing, found, differs⟩
      simp only [Option.isSome_some, if_true, startFor_found ready follows bound found, data]
      exact .of_running ⟨follows, bound, found_replyTo found data⟩ nofun

theorem perform_inserting {flowName : String} (ready : db.Ready operation)
    (follows : operation.Follows read) (bound : db.binds operation flowName)
    (keeps : ¬ (inserting read flowName).Strays db operation) :
    Goes db operation (.inserting read flowName) (perform db payload (.inserting read flowName)) := by
  simp only [perform, follows.id]
  cases found : db.startedProcess? flowName (uuidText operation.id) with
  | none =>
      obtain ⟨later, reply, returned⟩ :=
        startFor_absent ready.steady ready.pins ready.starts bound found
      rw [startFor_follows follows, returned]
      exact .of_running ⟨follows, bound, found⟩ nofun
  | some existing =>
      have data : existing.data = processData operation := by
        by_contra differs
        exact keeps ⟨existing, found, differs⟩
      simp only [startFor_found ready follows bound found, data, if_true, Option.isSome_some]
      exact .of_running ⟨follows, bound, found_replyTo found data⟩ nofun

theorem perform_pinning {flowName : String} {existing : Option StartReply}
    (ready : db.Ready operation) (follows : operation.Follows read)
    (bound : db.binds operation flowName) (found : db.Found operation flowName existing) :
    Goes db operation (.pinning read flowName existing)
      (perform db payload (.pinning read flowName existing)) := by
  simp only [perform, follows.id]
  split
  · rename_i unprocessed
    exact .of_running ⟨follows, bound, found, unprocessed⟩ (by simp)
  · rename_i processed
    obtain ⟨current, located, member, onward⟩ := ready.operation?
    have processing : current.status = .processing := by
      simpa [Db.unprocessed, located] using processed
    have facts := ready.pins.operations current member
    cases pin : current.processId with
    | none =>
        rw [Db.Pinned, pin, processing] at facts
        cases facts.1
    | some processId =>
        have pinned : db.pinnedTo operation processId := ⟨current, member, onward.id, pin⟩
        obtain ⟨process, started, _⟩ := ready.pinned_started bound pinned
        have known : existing.isSome = true := by
          cases existing with
          | some reply => rfl
          | none =>
              change db.startedProcess? flowName (uuidText operation.id) = none at found
              rw [started] at found
              cases found
        exact .of_running ⟨follows, bound, found, known, processId, pinned⟩ (by simp)

theorem unsubmitted_of_open (ready : db.Ready operation)
    (unprocessed : db.unprocessed operation.id = true)
    (open_ : ¬ db.isClosed operation.id = true) : db.submitted operation.id = false := by
  obtain ⟨current, located, member, follows⟩ := ready.operation?
  have facts := ready.pins.operations current member
  simp only [Db.unprocessed, located, Option.any_some, decide_eq_true_eq] at unprocessed
  simp only [Db.isClosed, located, Option.any_some] at open_
  have created : current.status = .created := by
    cases state : current.status with
    | created => rfl
    | processing => exact absurd state unprocessed
    | completed | rejected => exact absurd (by rw [state]; rfl) open_
  unfold Db.Pinned at facts
  split at facts
  · rw [Db.submitted_iff, ← follows.id]
    exact facts.2
  · exact absurd created facts.1

theorem submitted_of_closed (ready : db.Ready operation)
    (closed : db.isClosed operation.id = true) : db.submitted operation.id = true := by
  by_contra unsubmitted
  obtain ⟨current, member, follows, _, created⟩ :=
    ready.unsubmitted (Bool.eq_false_iff.mpr unsubmitted)
  have located : db.payment.operation? operation.id = some current := by
    rw [← follows.id]
    exact Table.lookup_of_mem ready.steady.ledger.operationIds member
  simp only [Db.isClosed, located, Option.any_some, created] at closed
  cases closed

theorem perform_logging {flowName : String} {existing : Option StartReply}
    (ready : db.Ready operation) (follows : operation.Follows read)
    (bound : db.binds operation flowName) (found : db.Found operation flowName existing)
    (unprocessed : db.unprocessed operation.id = true)
    (keeps : ¬ (logging read flowName existing).Strays db operation) :
    Goes db operation (.logging read flowName existing)
      (perform db payload (.logging read flowName existing)) := by
  have unsubmitted := unsubmitted_of_open ready unprocessed keeps
  simp only [perform, follows.id, unsubmitted, Bool.false_eq_true, if_false]
  exact .of_running ⟨follows, bound, found, unprocessed, unsubmitted⟩ nofun

theorem perform_committing {flowName : String} {existing : Option StartReply} {submitted : Bool}
    (ready : db.Ready operation)
    (holds : (committing read flowName existing submitted).Holds db operation) :
    Goes db operation (.committing read flowName existing submitted)
      (perform db payload (.committing read flowName existing submitted)) := by
  obtain ⟨follows, bound, found, rest⟩ := holds
  cases submitted with
  | true =>
      obtain ⟨later, process, returned, moves, started, pinned⟩ :=
        commit_submitted ready bound follows found rest.2 payload
      simp only [perform, returned]
      refine ⟨moves, trivial, ?_⟩
      intro ending past _
      cases past
      rw [submitResult_follows follows]
      exact (ready.moved moves).answered (bound.of_config moves.config_eq) started pinned
  | false =>
      obtain ⟨known, processId, pinned⟩ := rest
      obtain ⟨reply, rfl⟩ := Option.isSome_iff_exists.mp known
      obtain ⟨process, here, _, sameId, sameFlow, sameVersion⟩ := found
      refine ⟨.refl, trivial, ?_⟩
      intro ending past _
      cases past
      rw [submitResult_follows follows, sameId, sameFlow, sameVersion]
      exact ready.answered bound here pinned

theorem perform_goes (ready : db.Ready operation) (names : payload.namesOperation operation.id)
    (holds : stage.Holds db operation) (keeps : ¬ stage.Strays db operation) :
    Goes db operation stage (stage.perform db payload) := by
  cases stage with
  | called => exact perform_called ready names
  | replaying read processId => exact perform_replaying ready holds.1 holds.2
  | starting read flowName => exact perform_starting ready holds.1 holds.2 keeps
  | inserting read flowName => exact perform_inserting ready holds.1 holds.2 keeps
  | pinning read flowName existing => exact perform_pinning ready holds.1 holds.2.1 holds.2.2
  | logging read flowName existing =>
      exact perform_logging ready holds.1 holds.2.1 holds.2.2.1 holds.2.2.2 keeps
  | committing read flowName existing submitted => exact perform_committing ready holds
  | ended ending => exact ⟨.refl, trivial, fun other past same => absurd past same⟩

/-- A statement that strays ends its submit by raising, and leaves the database alone. -/
theorem perform_strays (ready : db.Ready operation) (holds : stage.Holds db operation)
    (strays : stage.Strays db operation) :
    ∃ error, stage.perform db payload = (db, .ended (.raised error)) := by
  cases stage with
  | starting read flowName =>
      obtain ⟨existing, found, differs⟩ := strays
      refine ⟨.startConflict (uuidText operation.id), ?_⟩
      simp only [perform, holds.1.id, found, Option.isSome_some, if_true,
        startFor_found ready holds.1 holds.2 found, differs, if_false]
  | inserting read flowName =>
      obtain ⟨existing, found, differs⟩ := strays
      refine ⟨.startConflict (uuidText operation.id), ?_⟩
      simp only [perform, startFor_found ready holds.1 holds.2 found, differs, if_false]
  | logging read flowName existing =>
      refine ⟨.uniqueViolation, ?_⟩
      simp only [perform, holds.1.id, submitted_of_closed ready strays, if_true]
  | called | replaying | pinning | committing | ended => exact strays.elim

end SubmitStage

end PaymentWorkflow
