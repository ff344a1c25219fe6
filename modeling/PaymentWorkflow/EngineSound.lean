import PaymentWorkflow.ProcessView

/-!
The structural invariant of the engine: keys and references of the workflow tables, and for
every process which live step and live job its state stands for.
-/

namespace PaymentWorkflow

theorem stepDefinition?_key {config : Config} {flowName stepKey : String} {flowVersion : Int}
    {definition : StepDefinition}
    (found : config.stepDefinition? flowName flowVersion stepKey = some definition) :
    definition.flowName = flowName ∧ definition.flowVersion = flowVersion ∧
      definition.stepKey = stepKey := by
  simpa using List.find?_some found

/-! Keys and references, over the columns that never change. -/

structure Rows (config : Config) (nextId : Nat) (fixed : Fixed) : Prop where
  processIds : (fixed.processes.map Process.id).Nodup
  stepIds : (fixed.steps.map StepInstance.id).Nodup
  jobIds : (fixed.jobs.map Job.id).Nodup
  messageIds : (fixed.signals.map Signal.messageId).Nodup
  processBound : ∀ row ∈ fixed.processes, row.id < nextId
  stepBound : ∀ row ∈ fixed.steps, row.id < nextId
  jobBound : ∀ row ∈ fixed.jobs, row.id < nextId
  stepDefined : ∀ step ∈ fixed.steps, ∃ process ∈ fixed.processes, process.id = step.processId ∧
    ∃ definition, config.stepDefinition? process.flowName process.flowVersion step.stepKey =
      some definition ∧ definition.stepType = step.stepType
  jobStep : ∀ job ∈ fixed.jobs, ∃ step ∈ fixed.steps, step.id = job.stepInstanceId ∧
    step.processId = job.processId
  signalProcess : ∀ signal ∈ fixed.signals, ∃ process ∈ fixed.processes,
    process.id = signal.processId

def Db.Rows (db : Db) : Prop := PaymentWorkflow.Rows db.config db.nextId db.fixed

namespace Rows

variable {config : Config} {nextId : Nat} {fixed : Fixed}

theorem mono {later : Nat} (rows : Rows config nextId fixed) (bound : nextId ≤ later) :
    Rows config later fixed :=
  { rows with
    processBound := fun row member => Nat.lt_of_lt_of_le (rows.processBound row member) bound
    stepBound := fun row member => Nat.lt_of_lt_of_le (rows.stepBound row member) bound
    jobBound := fun row member => Nat.lt_of_lt_of_le (rows.jobBound row member) bound }

theorem fresh_append {Row : Type} {key : Row → Nat} {table : List Row} {row : Row}
    (unique : (table.map key).Nodup) (bound : ∀ other ∈ table, key other < key row) :
    ((table ++ [row]).map key).Nodup := by
  rw [List.map_append, List.nodup_append]
  refine ⟨unique, by simp, ?_⟩
  intro left leftMember right rightMember same
  simp only [List.map_cons, List.map_nil, List.mem_singleton] at rightMember
  obtain ⟨other, member, rfl⟩ := List.mem_map.mp leftMember
  have := bound other member
  omega

theorem insertProcess (rows : Rows config nextId fixed) {process : Process}
    (fresh : process.id = nextId) :
    Rows config (nextId + 1) { fixed with processes := fixed.processes ++ [process] } := by
  have later := rows.mono (Nat.le_succ nextId)
  refine { later with processIds := ?_, processBound := ?_, stepDefined := ?_, signalProcess := ?_ }
  · exact fresh_append rows.processIds fun other member => fresh ▸ rows.processBound other member
  · intro row member
    rcases List.mem_append.mp member with old | new
    · exact later.processBound row old
    · simp only [List.mem_singleton] at new
      subst new
      show _ < nextId + 1
      omega
  · intro step member
    obtain ⟨owner, ownerMember, facts⟩ := rows.stepDefined step member
    exact ⟨owner, by simp [ownerMember], facts⟩
  · intro signal member
    obtain ⟨owner, ownerMember, same⟩ := rows.signalProcess signal member
    exact ⟨owner, by simp [ownerMember], same⟩

theorem insertSignal (rows : Rows config nextId fixed) {signal : Signal}
    (fresh : ∀ row ∈ fixed.signals, row.messageId ≠ signal.messageId)
    (owned : ∃ process ∈ fixed.processes, process.id = signal.processId) :
    Rows config nextId { fixed with signals := fixed.signals ++ [signal] } := by
  refine { rows with messageIds := ?_, signalProcess := ?_ }
  · rw [List.map_append, List.nodup_append]
    refine ⟨rows.messageIds, by simp, ?_⟩
    intro left leftMember right rightMember same
    simp only [List.map_cons, List.map_nil, List.mem_singleton] at rightMember
    obtain ⟨other, member, rfl⟩ := List.mem_map.mp leftMember
    exact fresh other member (same.trans rightMember)
  · intro row member
    rcases List.mem_append.mp member with old | new
    · exact rows.signalProcess row old
    · simp only [List.mem_singleton] at new
      exact new ▸ owned

theorem insertStep (rows : Rows config nextId fixed) {step : StepInstance}
    (fresh : step.id = nextId)
    (defined : ∃ process ∈ fixed.processes, process.id = step.processId ∧
      ∃ definition, config.stepDefinition? process.flowName process.flowVersion step.stepKey =
        some definition ∧ definition.stepType = step.stepType) :
    Rows config (nextId + 1) { fixed with steps := fixed.steps ++ [step] } := by
  have later := rows.mono (Nat.le_succ nextId)
  refine { later with stepIds := ?_, stepBound := ?_, stepDefined := ?_, jobStep := ?_ }
  · exact fresh_append rows.stepIds fun other member => fresh ▸ rows.stepBound other member
  · intro row member
    rcases List.mem_append.mp member with old | new
    · exact later.stepBound row old
    · simp only [List.mem_singleton] at new
      subst new
      show _ < nextId + 1
      omega
  · intro row member
    rcases List.mem_append.mp member with old | new
    · exact rows.stepDefined row old
    · simp only [List.mem_singleton] at new
      exact new ▸ defined
  · intro job member
    obtain ⟨owner, ownerMember, facts⟩ := rows.jobStep job member
    exact ⟨owner, by simp [ownerMember], facts⟩

theorem insertJob (rows : Rows config nextId fixed) {job : Job} (fresh : job.id = nextId)
    (owned : ∃ step ∈ fixed.steps, step.id = job.stepInstanceId ∧
      step.processId = job.processId) :
    Rows config (nextId + 1) { fixed with jobs := fixed.jobs ++ [job] } := by
  have later := rows.mono (Nat.le_succ nextId)
  refine { later with jobIds := ?_, jobBound := ?_, jobStep := ?_ }
  · exact fresh_append rows.jobIds fun other member => fresh ▸ rows.jobBound other member
  · intro row member
    rcases List.mem_append.mp member with old | new
    · exact later.jobBound row old
    · simp only [List.mem_singleton] at new
      subst new
      show _ < nextId + 1
      omega
  · intro row member
    rcases List.mem_append.mp member with old | new
    · exact rows.jobStep row old
    · simp only [List.mem_singleton] at new
      exact new ▸ owned

end Rows

namespace Db.Rows

variable {db : Db}

theorem processIds (rows : db.Rows) : (db.workflow.processes.map Process.id).Nodup := by
  simpa [Db.fixed, Function.comp_def, Process.fixed] using PaymentWorkflow.Rows.processIds rows

theorem stepIds (rows : db.Rows) : (db.workflow.steps.map StepInstance.id).Nodup := by
  simpa [Db.fixed, Function.comp_def, StepInstance.fixed] using PaymentWorkflow.Rows.stepIds rows

theorem jobIds (rows : db.Rows) : (db.workflow.jobs.map Job.id).Nodup := by
  simpa [Db.fixed, Function.comp_def, Job.fixed] using PaymentWorkflow.Rows.jobIds rows

theorem messageIds (rows : db.Rows) : (db.workflow.signals.map Signal.messageId).Nodup := by
  simpa [Db.fixed, Function.comp_def, Signal.fixed] using PaymentWorkflow.Rows.messageIds rows

theorem processBound (rows : db.Rows) : ∀ row ∈ db.workflow.processes, row.id < db.nextId :=
  fun row member => PaymentWorkflow.Rows.processBound rows row.fixed (List.mem_map_of_mem member)

theorem stepBound (rows : db.Rows) : ∀ row ∈ db.workflow.steps, row.id < db.nextId :=
  fun row member => PaymentWorkflow.Rows.stepBound rows row.fixed (List.mem_map_of_mem member)

theorem jobBound (rows : db.Rows) : ∀ row ∈ db.workflow.jobs, row.id < db.nextId :=
  fun row member => PaymentWorkflow.Rows.jobBound rows row.fixed (List.mem_map_of_mem member)

theorem stepDefined (rows : db.Rows) {step : StepInstance} (member : step ∈ db.workflow.steps) :
    ∃ process ∈ db.workflow.processes, process.id = step.processId ∧
      ∃ definition, db.config.stepDefinition? process.flowName process.flowVersion step.stepKey =
        some definition ∧ definition.stepType = step.stepType := by
  obtain ⟨owner, ownerMember, facts⟩ :=
    PaymentWorkflow.Rows.stepDefined rows step.fixed (List.mem_map_of_mem member)
  obtain ⟨process, processMember, rfl⟩ := List.mem_map.mp ownerMember
  exact ⟨process, processMember, facts⟩

theorem jobStep (rows : db.Rows) {job : Job} (member : job ∈ db.workflow.jobs) :
    ∃ step ∈ db.workflow.steps, step.id = job.stepInstanceId ∧ step.processId = job.processId := by
  obtain ⟨owner, ownerMember, facts⟩ :=
    PaymentWorkflow.Rows.jobStep rows job.fixed (List.mem_map_of_mem member)
  obtain ⟨step, stepMember, rfl⟩ := List.mem_map.mp ownerMember
  exact ⟨step, stepMember, facts⟩

theorem signalProcess (rows : db.Rows) {signal : Signal} (member : signal ∈ db.workflow.signals) :
    ∃ process ∈ db.workflow.processes, process.id = signal.processId := by
  obtain ⟨owner, ownerMember, same⟩ :=
    PaymentWorkflow.Rows.signalProcess rows signal.fixed (List.mem_map_of_mem member)
  obtain ⟨process, processMember, rfl⟩ := List.mem_map.mp ownerMember
  exact ⟨process, processMember, same⟩

theorem process? (rows : db.Rows) {process : Process} (member : process ∈ db.workflow.processes) :
    db.workflow.process? process.id = some process :=
  Table.lookup_of_mem rows.processIds member

theorem step? (rows : db.Rows) {step : StepInstance} (member : step ∈ db.workflow.steps) :
    db.workflow.step? step.id = some step :=
  Table.lookup_of_mem rows.stepIds member

theorem job? (rows : db.Rows) {job : Job} (member : job ∈ db.workflow.jobs) :
    db.workflow.job? job.id = some job :=
  Table.lookup_of_mem rows.jobIds member

theorem definition (rows : db.Rows) {step : StepInstance} {process : Process}
    (member : step ∈ db.workflow.steps) (owner : process ∈ db.workflow.processes)
    (owns : process.id = step.processId) :
    ∃ definition, db.config.stepDefinition? process.flowName process.flowVersion step.stepKey =
      some definition ∧ definition.stepType = step.stepType := by
  obtain ⟨other, otherMember, same, facts⟩ := rows.stepDefined member
  rw [Table.key_unique rows.processIds owner otherMember (owns.trans same.symm)]
  exact facts

/-! Rows of one process do not show in the view of another. -/

theorem step_away (rows : db.Rows) {step : StepInstance} (member : step ∈ db.workflow.steps)
    {other : Nat} (different : step.processId ≠ other) :
    ∀ row ∈ (db.view other).steps, row.id ≠ step.id := by
  intro row rowMember same
  simp only [view, List.mem_filter, decide_eq_true_eq] at rowMember
  have equal := Table.key_unique rows.stepIds rowMember.1 member same
  exact different (equal ▸ rowMember.2)

theorem job_away (rows : db.Rows) {job : Job} (member : job ∈ db.workflow.jobs) {other : Nat}
    (different : job.processId ≠ other) : ∀ row ∈ (db.view other).jobs, row.id ≠ job.id := by
  intro row rowMember same
  simp only [view, List.mem_filter, decide_eq_true_eq] at rowMember
  have equal := Table.key_unique rows.jobIds rowMember.1 member same
  exact different (equal ▸ rowMember.2)

theorem signal_away (rows : db.Rows) {signal : Signal} (member : signal ∈ db.workflow.signals)
    {other : Nat} (different : signal.processId ≠ other) :
    ∀ row ∈ (db.view other).signals, row.messageId ≠ signal.messageId := by
  intro row rowMember same
  simp only [view, List.mem_filter, decide_eq_true_eq] at rowMember
  have equal := Table.key_unique rows.messageIds rowMember.1 member same
  exact different (equal ▸ rowMember.2)

theorem view_fresh (rows : db.Rows) : (db.view db.nextId).process = none ∧
    (db.view db.nextId).steps = [] ∧ (db.view db.nextId).jobs = [] ∧
      (db.view db.nextId).signals = [] := by
  have noSteps : ∀ step ∈ db.workflow.steps, step.processId ≠ db.nextId := by
    intro step member same
    obtain ⟨process, processMember, owns, _⟩ := rows.stepDefined member
    have := rows.processBound process processMember
    omega
  refine ⟨?_, ?_, ?_, ?_⟩
  · refine Table.lookup_eq_none.mpr fun process member same => ?_
    have := rows.processBound process member
    omega
  · simpa [view] using noSteps
  · simp only [view, List.filter_eq_nil_iff, decide_eq_true_eq]
    intro job member same
    obtain ⟨step, stepMember, _, owns⟩ := rows.jobStep member
    exact noSteps step stepMember (owns.trans same)
  · simp only [view, List.filter_eq_nil_iff, decide_eq_true_eq]
    intro signal member same
    obtain ⟨process, processMember, owns⟩ := rows.signalProcess member
    have := rows.processBound process processMember
    omega

theorem placeStep (rows : db.Rows) {process : Process} {definition : StepDefinition}
    (member : process ∈ db.workflow.processes)
    (defined : db.config.stepDefinition? process.flowName process.flowVersion definition.stepKey =
      some definition) :
    (db.placeStep process.id definition).Rows := by
  have entered := @PaymentWorkflow.Rows.insertStep _ _ _ rows
    (db.placedStep process.id definition).fixed rfl
    ⟨process.fixed, List.mem_map_of_mem member, rfl, definition, defined, rfl⟩
  simp only [Db.Rows, placeStep_config, placeStep_nextId, fixed_placeStep rows.stepBound]
  by_cases automatic : definition.stepType = .automatic
  · have worked := @PaymentWorkflow.Rows.insertJob _ _ _ entered
      { id := db.nextId + 1, processId := process.id, stepInstanceId := db.nextId,
        executionId := db.nextId + 2, state := .ready, leaseOwner := none,
        leaseVersion := 0, leaseUntil := none, attemptCount := 0, nextAttemptAt := none,
        createdAt := db.clock (db.ticks + 2) } rfl
      ⟨(db.placedStep process.id definition).fixed, by simp, rfl, rfl⟩
    simpa [placedJobs, automatic, Job.fixed] using worked.mono (Nat.le_succ _)
  · simpa [placedJobs, automatic] using entered

end Db.Rows

/-! The live step and job of a process. -/

def StepState.live : StepState → Bool
  | .pending | .ready | .running | .waiting => true
  | .completed | .failed => false

def JobState.live : JobState → Bool
  | .ready | .leased | .retryWait => true
  | .succeeded | .dead => false

namespace View

def liveSteps (view : View) : List StepInstance := view.steps.filter fun row => row.state.live

def liveJobs (view : View) : List Job := view.jobs.filter fun row => row.state.live

end View

inductive Shape (process : Process) : List StepInstance → List Job → Prop
  | running (step : StepInstance) (job : Job) (state : process.state = .running)
      (current : process.currentStepKey = some step.stepKey) (automatic : step.stepType = .automatic)
      (runs : job.stepInstanceId = step.id) : Shape process [step] [job]
  | waitingSignal (step : StepInstance) (state : process.state = .waitingSignal)
      (current : process.currentStepKey = some step.stepKey)
      (waits : step.stepType = .waitSignal) (waiting : step.state = .waiting) :
      Shape process [step] []
  | waitingManual (step : StepInstance) (state : process.state = .waitingManual)
      (current : process.currentStepKey = some step.stepKey)
      (manual : step.stepType = .manual) (waiting : step.state = .waiting) :
      Shape process [step] []
  | ended (state : process.state = .completed ∨ process.state = .failed) : Shape process [] []

def View.Settled (view : View) : Prop :=
  ∀ process, view.process = some process → Shape process view.liveSteps view.liveJobs

structure Db.Sound (db : Db) : Prop where
  rows : db.Rows
  settled : ∀ processId, (db.view processId).Settled

namespace View

variable {view : View}

theorem liveSteps_log (events : List WorkflowEvent) :
    (view.log events).liveSteps = view.liveSteps := rfl

theorem liveJobs_log (events : List WorkflowEvent) : (view.log events).liveJobs = view.liveJobs :=
  rfl

theorem liveSteps_updateSteps_leave {id : Nat} {change : StepInstance → StepInstance}
    (leaves : ∀ row, (change row).state.live = false) :
    (view.updateSteps id change).liveSteps = view.liveSteps.filter fun row => row.id ≠ id := by
  simp only [liveSteps, updateSteps]
  rw [Table.filter_update_leave (fun row : StepInstance => row.state.live) _ change leaves]
  simp

theorem liveJobs_updateJobs_leave {id : Nat} {change : Job → Job}
    (leaves : ∀ row, (change row).state.live = false) :
    (view.updateJobs id change).liveJobs = view.liveJobs.filter fun row => row.id ≠ id := by
  simp only [liveJobs, updateJobs]
  rw [Table.filter_update_leave (fun row : Job => row.state.live) _ change leaves]
  simp

theorem liveSteps_updateSteps_stay {id : Nat} {change : StepInstance → StepInstance}
    (stays : ∀ row ∈ view.steps, row.id = id → (change row).state.live = row.state.live) :
    (view.updateSteps id change).liveSteps =
      Table.update (fun row => row.id = id) change view.liveSteps := by
  simp only [liveSteps, updateSteps]
  rw [Table.filter_update_stay]
  intro row member matched
  exact stays row member (by simpa using matched)

theorem liveJobs_updateJobs_stay {id : Nat} {change : Job → Job}
    (stays : ∀ row ∈ view.jobs, row.id = id → (change row).state.live = row.state.live) :
    (view.updateJobs id change).liveJobs =
      Table.update (fun row => row.id = id) change view.liveJobs := by
  simp only [liveJobs, updateJobs]
  rw [Table.filter_update_stay]
  intro row member matched
  exact stays row member (by simpa using matched)

theorem settled_place (db : Db) (processId : Nat) (definition : StepDefinition)
    (events : List WorkflowEvent) (noSteps : view.liveSteps = []) (noJobs : view.liveJobs = []) :
    (view.place definition (db.placedStep processId definition)
      (db.placedJobs processId definition) events).Settled := by
  intro process found
  simp only [place, Option.map_eq_some_iff] at found
  obtain ⟨before, _, rfl⟩ := found
  simp only [liveSteps] at noSteps
  simp only [liveJobs] at noJobs
  simp only [liveSteps, liveJobs, place, List.filter_append, noSteps, noJobs, List.nil_append]
  rcases definition with ⟨_, _, _, stepType, _⟩
  cases stepType
  · exact .running _ _ rfl rfl rfl rfl
  · exact .waitingSignal _ rfl rfl rfl rfl
  · exact .waitingManual _ rfl rfl rfl rfl
  · exact .ended (.inl rfl)

theorem Settled.running_of_job (settled : view.Settled) {process : Process}
    (found : view.process = some process) {job : Job} (member : job ∈ view.jobs)
    (live : job.state.live = true) :
    ∃ step, process.state = .running ∧ process.currentStepKey = some step.stepKey ∧
      step.stepType = .automatic ∧ job.stepInstanceId = step.id ∧ view.liveSteps = [step] ∧
        view.liveJobs = [job] := by
  have inside : job ∈ view.liveJobs := List.mem_filter.mpr ⟨member, live⟩
  have shape := settled process found
  generalize stepsEq : view.liveSteps = steps at shape
  generalize jobsEq : view.liveJobs = jobs at shape inside
  cases shape with
  | running step other state current automatic runs =>
      simp only [List.mem_singleton] at inside
      subst inside
      exact ⟨step, state, current, automatic, runs, rfl, rfl⟩
  | waitingSignal => simp at inside
  | waitingManual => simp at inside
  | ended => simp at inside

theorem Settled.of_waiting (settled : view.Settled) {process : Process}
    (found : view.process = some process) {step : StepInstance} (member : step ∈ view.steps)
    (waiting : step.state = .waiting) (notAutomatic : step.stepType ≠ .automatic) :
    process.currentStepKey = some step.stepKey ∧ view.liveSteps = [step] ∧ view.liveJobs = [] ∧
      (step.stepType = .waitSignal → process.state = .waitingSignal) ∧
        (step.stepType = .manual → process.state = .waitingManual) := by
  have inside : step ∈ view.liveSteps := List.mem_filter.mpr ⟨member, by rw [waiting]; rfl⟩
  have shape := settled process found
  generalize stepsEq : view.liveSteps = steps at shape inside
  generalize jobsEq : view.liveJobs = jobs at shape
  cases shape with
  | running other job state current automatic runs =>
      simp only [List.mem_singleton] at inside
      subst inside
      exact absurd automatic notAutomatic
  | waitingSignal other state current waits =>
      simp only [List.mem_singleton] at inside
      subst inside
      simp [current, state, waits]
  | waitingManual other state current manual =>
      simp only [List.mem_singleton] at inside
      subst inside
      simp [current, state, manual]
  | ended => simp at inside

theorem Settled.of_waits (settled : view.Settled) {process : Process}
    (found : view.process = some process) {step : StepInstance} (member : step ∈ view.liveSteps)
    (waits : step.stepType = .waitSignal) :
    process.state = .waitingSignal ∧ step.state = .waiting := by
  have shape := settled process found
  generalize view.liveSteps = steps at shape member
  generalize view.liveJobs = jobs at shape
  cases shape with
  | running other job state current automatic =>
      simp only [List.mem_singleton] at member
      subst member
      rw [automatic] at waits
      simp at waits
  | waitingSignal other state current _ waiting =>
      simp only [List.mem_singleton] at member
      exact ⟨state, member ▸ waiting⟩
  | waitingManual other state current manual =>
      simp only [List.mem_singleton] at member
      subst member
      rw [manual] at waits
      simp at waits
  | ended => simp at member

end View

end PaymentWorkflow
