import PaymentWorkflow.EngineRows

/-!
The database seen from one process: its row and the rows that belong to it, in table order,
and what every update of the engine does to that view. The columns no UPDATE ever writes are
kept apart, in `Db.fixed`.
-/

namespace PaymentWorkflow

structure View where
  process : Option Process
  steps : List StepInstance
  jobs : List Job
  signals : List Signal
  events : List WorkflowEvent

def Db.view (db : Db) (processId : Nat) : View where
  process := db.workflow.process? processId
  steps := db.workflow.steps.filter fun row => row.processId = processId
  jobs := db.workflow.jobs.filter fun row => row.processId = processId
  signals := db.workflow.signals.filter fun row => row.processId = processId
  events := db.workflow.events.filter fun row => row.processId = processId

namespace View

def updateSteps (view : View) (id : Nat) (change : StepInstance → StepInstance) : View :=
  { view with steps := Table.update (fun row => row.id = id) change view.steps }

def updateJobs (view : View) (id : Nat) (change : Job → Job) : View :=
  { view with jobs := Table.update (fun row => row.id = id) change view.jobs }

def updateSignals (view : View) (messageId : String) (change : Signal → Signal) : View :=
  { view with signals := Table.update (fun row => row.messageId = messageId) change view.signals }

def updateProcess (view : View) (change : Process → Process) : View :=
  { view with process := view.process.map change }

def log (view : View) (events : List WorkflowEvent) : View :=
  { view with events := view.events ++ events }

def place (view : View) (definition : StepDefinition) (step : StepInstance) (jobs : List Job)
    (events : List WorkflowEvent) : View where
  process := view.process.map (Db.placedProcess definition)
  steps := view.steps ++ [step]
  jobs := view.jobs ++ jobs
  signals := view.signals
  events := view.events ++ events

@[simp] theorem log_nil (view : View) : view.log [] = view := by
  simp [log]

@[simp] theorem log_log (view : View) (left right : List WorkflowEvent) :
    (view.log left).log right = view.log (left ++ right) := by
  simp [log]

theorem updateSteps_away {view : View} {id : Nat} (change : StepInstance → StepInstance)
    (missed : ∀ row ∈ view.steps, row.id ≠ id) : view.updateSteps id change = view := by
  simp only [updateSteps]
  rw [Table.update_eq_self _ _ _ fun row member => by simpa using missed row member]

theorem updateJobs_away {view : View} {id : Nat} (change : Job → Job)
    (missed : ∀ row ∈ view.jobs, row.id ≠ id) : view.updateJobs id change = view := by
  simp only [updateJobs]
  rw [Table.update_eq_self _ _ _ fun row member => by simpa using missed row member]

theorem updateSignals_away {view : View} {messageId : String} (change : Signal → Signal)
    (missed : ∀ row ∈ view.signals, row.messageId ≠ messageId) :
    view.updateSignals messageId change = view := by
  simp only [updateSignals]
  rw [Table.update_eq_self _ _ _ fun row member => by simpa using missed row member]

end View

/-! The columns of a row that are written once. -/

def Process.fixed (process : Process) : Process :=
  { process with state := .created, currentStepKey := none }

theorem Process.fixed_columns {process after : Process} (same : after.fixed = process.fixed) :
    after.id = process.id ∧ after.flowName = process.flowName ∧
      after.flowVersion = process.flowVersion ∧ after.businessKey = process.businessKey ∧
        after.data = process.data := by
  simpa only [Process.fixed, Process.mk.injEq, true_and] using same

def StepInstance.fixed (step : StepInstance) : StepInstance :=
  { step with state := .pending, outcome := none }

def Job.fixed (job : Job) : Job :=
  { job with
    state := .ready, leaseOwner := none, leaseVersion := 0, leaseUntil := none
    attemptCount := 0, nextAttemptAt := none }

def Signal.fixed (signal : Signal) : Signal := { signal with status := .accepted }

structure Fixed where
  processes : List Process
  steps : List StepInstance
  jobs : List Job
  signals : List Signal

def Db.fixed (db : Db) : Fixed where
  processes := db.workflow.processes.map Process.fixed
  steps := db.workflow.steps.map StepInstance.fixed
  jobs := db.workflow.jobs.map Job.fixed
  signals := db.workflow.signals.map Signal.fixed

namespace Db

variable (db : Db)

section Fixed

variable {db}

theorem fixed_updateProcess {id : Nat} {change : Process → Process}
    (stable : ∀ row, (change row).fixed = row.fixed) :
    (db.updateProcess id change).fixed = db.fixed := by
  simp [fixed, Table.map_update Process.fixed _ change stable]

theorem fixed_updateStep {id : Nat} {change : StepInstance → StepInstance}
    (stable : ∀ row, (change row).fixed = row.fixed) :
    (db.updateStep id change).fixed = db.fixed := by
  simp [fixed, Table.map_update StepInstance.fixed _ change stable]

theorem fixed_updateJob {id : Nat} {change : Job → Job}
    (stable : ∀ row, (change row).fixed = row.fixed) :
    (db.updateJob id change).fixed = db.fixed := by
  simp [fixed, Table.map_update Job.fixed _ change stable]

theorem fixed_updateSignal {messageId : String} {change : Signal → Signal}
    (stable : ∀ row, (change row).fixed = row.fixed) :
    (db.updateSignal messageId change).fixed = db.fixed := by
  simp [fixed, Table.map_update Signal.fixed _ change stable]

theorem fixed_updateAttempts {matched : Attempt → Bool} {change : Attempt → Attempt} :
    (db.updateAttempts matched change).fixed = db.fixed := rfl

theorem fixed_insertAttempt {job : Job} {leaseVersion : Nat} :
    (db.insertAttempt job leaseVersion).fixed = db.fixed := rfl

theorem fixed_insertEvent {processId : Nat} {stepInstanceId : Option Nat} {eventType : EventType} :
    (db.insertEvent processId stepInstanceId eventType).fixed = db.fixed := rfl

theorem fixed_tick : db.tick.fixed = db.fixed := rfl

theorem fixed_insertProcess {flowName : String} {flowVersion : Int} {businessKey : String}
    {data : Json} :
    (db.insertProcess flowName flowVersion businessKey data).fixed = { db.fixed with
      processes := db.fixed.processes ++
        [⟨db.nextId, flowName, flowVersion, businessKey, .created, none, data⟩] } := by
  simp [fixed, Process.fixed]

theorem fixed_insertSignal {messageId : String} {processId : Nat} {signalType bodyHash : String} :
    (db.insertSignal messageId processId signalType bodyHash).fixed = { db.fixed with
      signals := db.fixed.signals ++
        [⟨messageId, processId, signalType, bodyHash, .accepted, db.now⟩] } := by
  simp [fixed, Signal.fixed]

theorem fixed_placeStep {processId : Nat} {definition : StepDefinition}
    (bound : ∀ row ∈ db.workflow.steps, row.id < db.nextId) :
    (db.placeStep processId definition).fixed = { db.fixed with
      steps := db.fixed.steps ++ [(db.placedStep processId definition).fixed]
      jobs := db.fixed.jobs ++ (db.placedJobs processId definition).map Job.fixed } := by
  simp only [fixed, placeStep_processes, placeStep_steps db processId definition bound,
    placeStep_jobs, placeStep_signals, List.map_append, List.map_cons, List.map_nil]
  rw [Table.map_update Process.fixed]
  exact fun _ => rfl

theorem fixed_consumeSignal {processId stepInstanceId : Nat} {outcome : Option String}
    {signal : Signal} :
    (db.consumeSignal processId stepInstanceId outcome signal).fixed = db.fixed := by
  simp only [consumeSignal, fixed_insertEvent]
  rw [fixed_updateStep, fixed_updateSignal] <;> exact fun _ => rfl

theorem fixed_completeJob {job : Job} {leaseVersion : Option Int} {outcome : Option String} :
    (db.completeJob job leaseVersion outcome).fixed = db.fixed := by
  simp only [completeJob, fixed_insertEvent]
  rw [fixed_updateStep, fixed_updateJob, fixed_updateAttempts] <;> exact fun _ => rfl

theorem fixed_completeManual {processId stepInstanceId : Nat} {decision : String} :
    (db.completeManual processId stepInstanceId decision).fixed = db.fixed := by
  simp only [completeManual, fixed_insertEvent]
  rw [fixed_updateStep]
  exact fun _ => rfl

theorem fixed_leaseJob {owner : String} {leaseMs : Option Int} {job : Job} :
    (db.leaseJob owner leaseMs job).fixed = db.fixed := by
  simp only [leaseJob, fixed_insertAttempt]
  rw [fixed_updateJob, fixed_updateStep, fixed_tick] <;> exact fun _ => rfl

theorem fixed_scheduleRetry {jobId : Nat} {nextAttemptAt : Option Time} :
    (db.scheduleRetry jobId nextAttemptAt).fixed = db.fixed := by
  simp only [scheduleRetry, fixed_tick]
  rw [fixed_updateJob]
  exact fun _ => rfl

theorem fixed_buryJob {job : Job} : (db.buryJob job).fixed = db.fixed := by
  simp only [buryJob, fixed_insertEvent]
  rw [fixed_updateProcess, fixed_updateStep, fixed_updateJob] <;> exact fun _ => rfl

end Fixed

section Primitive

theorem view_tick (processId : Nat) : db.tick.view processId = db.view processId := rfl

theorem view_updateProcess (id : Nat) (change : Process → Process)
    (stable : ∀ row, (change row).id = row.id) (processId : Nat) :
    (db.updateProcess id change).view processId =
      if processId = id then (db.view processId).updateProcess change
      else db.view processId := by
  simp only [view, Workflow.process?, updateProcess, View.updateProcess,
    Table.lookup_update Process.id processId _ change stable]
  by_cases same : processId = id
  · subst same
    cases found : Table.lookup Process.id processId db.workflow.processes with
    | none => simp
    | some process => simp [(Table.lookup_mem found).2]
  · cases found : Table.lookup Process.id processId db.workflow.processes with
    | none => simp
    | some process => simp [(Table.lookup_mem found).2, same]

theorem view_updateStep (id : Nat) (change : StepInstance → StepInstance)
    (stable : ∀ row, (change row).processId = row.processId) (processId : Nat) :
    (db.updateStep id change).view processId = (db.view processId).updateSteps id change := by
  simp only [view, Workflow.process?, updateStep, View.updateSteps]
  rw [Table.filter_update _ _ _ (fun row => by simp [stable])]

theorem view_updateJob (id : Nat) (change : Job → Job)
    (stable : ∀ row, (change row).processId = row.processId) (processId : Nat) :
    (db.updateJob id change).view processId = (db.view processId).updateJobs id change := by
  simp only [view, Workflow.process?, updateJob, View.updateJobs]
  rw [Table.filter_update _ _ _ (fun row => by simp [stable])]

theorem view_updateSignal (messageId : String) (change : Signal → Signal)
    (stable : ∀ row, (change row).processId = row.processId) (processId : Nat) :
    (db.updateSignal messageId change).view processId =
      (db.view processId).updateSignals messageId change := by
  simp only [view, Workflow.process?, updateSignal, View.updateSignals]
  rw [Table.filter_update _ _ _ (fun row => by simp [stable])]

theorem view_updateAttempts (matched : Attempt → Bool) (change : Attempt → Attempt)
    (processId : Nat) : (db.updateAttempts matched change).view processId = db.view processId := rfl

theorem view_insertAttempt (job : Job) (leaseVersion processId : Nat) :
    (db.insertAttempt job leaseVersion).view processId = db.view processId := rfl

theorem view_insertEvent (owner : Nat) (stepInstanceId : Option Nat) (eventType : EventType)
    (processId : Nat) :
    (db.insertEvent owner stepInstanceId eventType).view processId =
      (db.view processId).log (if owner = processId then [⟨owner, stepInstanceId, eventType⟩]
        else []) := by
  by_cases same : owner = processId <;>
    simp [view, Workflow.process?, View.log, same]

theorem view_insertDecision (owner stepInstanceId : Nat) (source : DecisionSource)
    (principal reasonHash : Option String) (outcome : DecisionOutcome)
    (ruleVersion : Option String) (processId : Nat) :
    (db.insertDecision owner stepInstanceId source principal reasonHash outcome ruleVersion).view
      processId = db.view processId := rfl

theorem view_insertSignal (messageId : String) (owner : Nat) (signalType bodyHash : String)
    (processId : Nat) :
    (db.insertSignal messageId owner signalType bodyHash).view processId =
      { db.view processId with
        signals := (db.view processId).signals ++ (if owner = processId then
          [⟨messageId, owner, signalType, bodyHash, .accepted, db.now⟩] else []) } := by
  by_cases same : owner = processId <;> simp [view, Workflow.process?, same]

theorem view_insertProcess (flowName : String) (flowVersion : Int) (businessKey : String)
    (data : Json) (bound : ∀ row ∈ db.workflow.processes, row.id < db.nextId) (processId : Nat) :
    (db.insertProcess flowName flowVersion businessKey data).view processId =
      if processId = db.nextId then { db.view processId with
        process := some ⟨db.nextId, flowName, flowVersion, businessKey, .created, none, data⟩ }
      else db.view processId := by
  simp only [view, Workflow.process?, insertProcess, Table.lookup_append]
  by_cases same : processId = db.nextId
  · subst same
    have absent : Table.lookup Process.id db.nextId db.workflow.processes = none := by
      rw [Table.lookup_eq_none]
      intro row member equal
      have := bound row member
      omega
    rw [absent]
    simp [Table.lookup]
  · simp [same, Table.lookup, Ne.symm same]

end Primitive

section Composite

theorem view_placeStep (owner : Nat) (definition : StepDefinition)
    (bound : ∀ row ∈ db.workflow.steps, row.id < db.nextId) (processId : Nat) :
    (db.placeStep owner definition).view processId =
      if processId = owner then (db.view owner).place definition (db.placedStep owner definition)
        (db.placedJobs owner definition) (db.placedEvents owner definition)
      else db.view processId := by
  have process := view_updateProcess db owner (placedProcess definition) (fun _ => rfl) processId
  have row : (db.placeStep owner definition).workflow.process? processId =
      (db.updateProcess owner (placedProcess definition)).workflow.process? processId := by
    simp only [Workflow.process?, placeStep_processes, updateProcess]
  have process' := congrArg View.process process
  simp only [view] at process'
  simp only [view, row, process', placeStep_steps db owner definition bound, placeStep_jobs,
    placeStep_signals, placeStep_events, List.filter_append]
  by_cases same : processId = owner
  · subst same
    rcases definition with ⟨_, _, _, stepType, _⟩
    cases stepType <;>
      simp [View.place, View.updateProcess, placedStep, placedJobs, placedEvents]
  · rcases definition with ⟨_, _, _, stepType, _⟩
    cases stepType <;>
      simp [same, Ne.symm same, placedStep, placedJobs, placedEvents]

theorem view_consumeSignal (owner stepInstanceId : Nat) (outcome : Option String)
    (signal : Signal) (processId : Nat) :
    (db.consumeSignal owner stepInstanceId outcome signal).view processId =
      (((db.view processId).updateSignals signal.messageId fun row =>
        { row with status := .applied }).updateSteps stepInstanceId fun row =>
          { row with state := .completed, outcome }).log (if owner = processId then
            [⟨owner, some stepInstanceId, .signalApplied⟩,
              ⟨owner, some stepInstanceId, .stepCompleted⟩] else []) := by
  simp only [consumeSignal, view_insertEvent, view_updateStep, view_updateSignal, implies_true]
  by_cases same : owner = processId <;> simp [same]

theorem view_completeJob (job : Job) (leaseVersion : Option Int) (outcome : Option String)
    (processId : Nat) :
    (db.completeJob job leaseVersion outcome).view processId =
      (((db.view processId).updateJobs job.id fun row =>
        { row with state := .succeeded, leaseUntil := none }).updateSteps job.stepInstanceId
          fun row => { row with state := .completed, outcome }).log
            (if job.processId = processId then
              [⟨job.processId, some job.stepInstanceId, .stepCompleted⟩] else []) := by
  simp only [completeJob, view_insertEvent, view_updateStep, view_updateJob, view_updateAttempts,
    implies_true]

theorem view_completeManual (owner stepInstanceId : Nat) (decision : String) (processId : Nat) :
    (db.completeManual owner stepInstanceId decision).view processId =
      ((db.view processId).updateSteps stepInstanceId fun row =>
        { row with state := .completed, outcome := some decision }).log
          (if owner = processId then
            [⟨owner, some stepInstanceId, .manualDecision⟩,
              ⟨owner, some stepInstanceId, .stepCompleted⟩] else []) := by
  simp only [completeManual, view_insertEvent, view_updateStep, implies_true]
  by_cases same : owner = processId <;> simp [same]

theorem view_leaseJob (owner : String) (leaseMs : Option Int) (job : Job) (processId : Nat) :
    (db.leaseJob owner leaseMs job).view processId =
      ((db.view processId).updateSteps job.stepInstanceId fun row =>
        { row with state := .running }).updateJobs job.id fun row =>
          { row with
            state := .leased, leaseOwner := some owner, leaseVersion := job.leaseVersion + 1
            leaseUntil := leaseMs.map fun count => db.now + milliseconds count
            attemptCount := job.attemptCount + 1, nextAttemptAt := none } := by
  simp only [leaseJob, view_insertAttempt, view_updateJob, view_updateStep, view_tick, implies_true]

theorem view_scheduleRetry (jobId : Nat) (nextAttemptAt : Option Time) (processId : Nat) :
    (db.scheduleRetry jobId nextAttemptAt).view processId =
      (db.view processId).updateJobs jobId fun row =>
        { row with
          state := .retryWait, leaseOwner := none, leaseUntil := none, nextAttemptAt } := by
  simp only [scheduleRetry, view_tick, view_updateJob, implies_true]

theorem view_buryJob (job : Job) (processId : Nat) :
    (db.buryJob job).view processId =
      (((if processId = job.processId then
          (db.view processId).updateProcess fun row => { row with state := .failed }
        else db.view processId).updateJobs job.id fun row =>
          { row with state := .dead, leaseOwner := none, leaseUntil := none }).updateSteps
            job.stepInstanceId fun row => { row with state := .failed }).log
              (if job.processId = processId then
                [⟨job.processId, some job.stepInstanceId, .taskFailed⟩] else []) := by
  simp only [buryJob, view_insertEvent, view_updateProcess, view_updateStep, view_updateJob,
    implies_true]
  by_cases same : processId = job.processId
  · simp only [same, if_true]
    rfl
  · simp only [same, if_false]

theorem disableJob_eq (job : Job) (attemptId : Nat) :
    db.disableJob job attemptId =
      (db.updateAttempts (fun row => row.id = attemptId) fun row =>
        { row with status := .failed, errorCode := some "workflow.action_disabled" }).buryJob job :=
  rfl

end Composite

end Db

end PaymentWorkflow
