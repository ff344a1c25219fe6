import PaymentWorkflow.EngineSound
import Mathlib.Logic.Relation

/-!
Every write of the engine is one of a few moves of one process, each leading from a settled
process to a settled one: whatever is proved of the moves holds of every call.
-/

namespace PaymentWorkflow

/-- A move of the process with the given id. Each leaves every other process alone. -/
inductive EngineMove : Nat → Db → Db → Prop
  | ticked {db : Db} (processId count : Nat) :
      EngineMove processId db { db with ticks := db.ticks + count }
  | swept {db : Db} (processId : Nat) : EngineMove processId db db.sweepExpired
  | started {db : Db} {flowName businessKey : String} {data : Json} {version : FlowVersion}
      {definition : StepDefinition} (absent : db.startedProcess? flowName businessKey = none)
      (active : db.activeVersion? flowName = some version)
      (defined : db.config.stepDefinition? flowName version.version version.map.startStep =
        some definition) :
      EngineMove db.nextId db (((db.insertProcess flowName version.version businessKey
        data).insertEvent db.nextId none .processStarted).placeStep db.nextId definition)
  | stored {db : Db} {process : Process} {signalType messageId bodyHash : String}
      (owner : process ∈ db.workflow.processes)
      (declared : declaresSignal db process signalType = true)
      (fresh : db.workflow.signal? messageId = none)
      (unused : (db.workflow.signals.any fun row =>
        sameSignal row process.id signalType bodyHash) = false) :
      EngineMove process.id db ((db.insertSignal messageId process.id signalType
        bodyHash).insertEvent process.id none .signalAccepted)
  | signalled {db : Db} {process : Process} {step : StepInstance}
      {definition next : StepDefinition} {signal : Signal} {transition : TransitionDefinition}
      (owner : process ∈ db.workflow.processes) (member : step ∈ db.workflow.steps)
      (owns : step.processId = process.id) (waits : step.stepType = .waitSignal)
      (waiting : step.state = .waiting)
      (defined : db.config.stepDefinition? process.flowName process.flowVersion step.stepKey =
        some definition)
      (ready : db.readySignal? process.id definition.params.signalType = some signal)
      (leads : db.config.transition? process.flowName process.flowVersion process.currentStepKey
        definition.params.outcome = some transition)
      (placed : db.config.stepDefinition? process.flowName process.flowVersion
        transition.toStepKey = some next) :
      EngineMove process.id db ((db.consumeSignal process.id step.id definition.params.outcome
        signal).placeStep process.id next)
  | applied {db : Db} (processId : Nat) (messageId : String) :
      EngineMove processId db (db.markApplied messageId)
  | leased {db : Db} {job : Job} (owner : String) (leaseMs : Option Int)
      (member : job ∈ db.workflow.jobs) (live : job.state.live = true) :
      EngineMove job.processId db (db.leaseJob owner leaseMs job)
  | disabled {db : Db} {job row : Job} (attemptId : Nat) (member : row ∈ db.workflow.jobs)
      (live : row.state = .leased) (same : row.fixed = job.fixed)
      (opened : ∃ attempt ∈ db.workflow.attempts, attempt.id = attemptId ∧ attempt.jobId = job.id) :
      EngineMove job.processId db (db.disableJob job attemptId)
  | finished {db : Db} {job : Job} {step : StepInstance} {process : Process}
      {owner outcome : Option String} {leaseVersion : Option Int}
      {transition : TransitionDefinition} {next : StepDefinition}
      (member : job ∈ db.workflow.jobs) (held : job.leaseIsStale owner leaseVersion = false)
      (stepMember : step ∈ db.workflow.steps) (runs : step.id = job.stepInstanceId)
      (processMember : process ∈ db.workflow.processes) (owns : process.id = job.processId)
      (leads : db.config.transition? process.flowName process.flowVersion process.currentStepKey
        outcome = some transition)
      (placed : db.config.stepDefinition? process.flowName process.flowVersion
        transition.toStepKey = some next) :
      EngineMove job.processId db ((db.completeJob job leaseVersion outcome).placeStep
        job.processId next)
  | retried {db : Db} {job : Job} {owner : Option String} {leaseVersion : Option Int}
      (errorCode : Option String) (nextAttemptAt : Option Time)
      (member : job ∈ db.workflow.jobs) (held : job.leaseIsStale owner leaseVersion = false)
      (remains : ((db.retryOf job).1.any fun most => (job.attemptCount : Int) < most) = true)
      (delayed : nextAttemptAt =
        (db.retryOf job).2.map fun count => db.now + milliseconds count) :
      EngineMove job.processId db ((db.failAttempt job.id leaseVersion errorCode).scheduleRetry
        job.id nextAttemptAt)
  | died {db : Db} {job : Job} {owner : Option String} {leaseVersion : Option Int}
      (errorCode : Option String) (member : job ∈ db.workflow.jobs)
      (held : job.leaseIsStale owner leaseVersion = false) :
      EngineMove job.processId db ((db.failAttempt job.id leaseVersion errorCode).buryJob job)
  | decided {db : Db} {process : Process} {step : StepInstance} {decision : String}
      {outcome : DecisionOutcome} {transition : TransitionDefinition} {next : StepDefinition}
      (principal reasonHash : Option String) (processMember : process ∈ db.workflow.processes)
      (member : step ∈ db.workflow.steps) (owns : step.processId = process.id)
      (manual : step.stepType = .manual) (waiting : step.state = .waiting)
      (known : DecisionOutcome.ofText? decision = some outcome)
      (undecided : (db.payment.decisions.any fun row => row.stepInstanceId = step.id) = false)
      (leads : db.config.transition? process.flowName process.flowVersion process.currentStepKey
        (some decision) = some transition)
      (placed : db.config.stepDefinition? process.flowName process.flowVersion
        transition.toStepKey = some next) :
      EngineMove process.id db (((db.insertDecision process.id step.id .manual principal
        reasonHash outcome none).completeManual process.id step.id decision).placeStep process.id
          next)

abbrev EngineMoves (processId : Nat) : Db → Db → Prop :=
  Relation.ReflTransGen (EngineMove processId)

theorem held_leased {job : Job} {owner : Option String} {leaseVersion : Option Int}
    (held : job.leaseIsStale owner leaseVersion = false) :
    job.state = .leased ∧ job.leaseOwner = owner := by
  simp only [Job.leaseIsStale, decide_eq_false_iff_not, not_or, ne_eq, not_not] at held
  exact ⟨held.1, held.2.1⟩

namespace Db

variable {db : Db}

theorem mem_view_steps {processId : Nat} {step : StepInstance} :
    step ∈ (db.view processId).steps ↔ step ∈ db.workflow.steps ∧ step.processId = processId := by
  simp [view]

theorem mem_view_jobs {processId : Nat} {job : Job} :
    job ∈ (db.view processId).jobs ↔ job ∈ db.workflow.jobs ∧ job.processId = processId := by
  simp [view]

theorem mem_view_signals {processId : Nat} {signal : Signal} :
    signal ∈ (db.view processId).signals ↔
      signal ∈ db.workflow.signals ∧ signal.processId = processId := by
  simp [view]

theorem readySignal?_mem {processId : Nat} {signalType : Option String} {signal : Signal}
    (ready : db.readySignal? processId signalType = some signal) :
    signal ∈ db.workflow.signals ∧ signal.processId = processId ∧
      some signal.signalType = signalType ∧ signal.status = .accepted := by
  have member := Table.first_mem ready
  simpa [and_assoc] using member

/-! The rows a composite update of one process changes are its own. -/

theorem view_consumeSignal_away (rows : db.Rows) {step : StepInstance} {signal : Signal}
    {owner : Nat} (outcome : Option String) (member : step ∈ db.workflow.steps)
    (owns : step.processId = owner) (signalMember : signal ∈ db.workflow.signals)
    (signalOwns : signal.processId = owner) {other : Nat} (different : other ≠ owner) :
    (db.consumeSignal owner step.id outcome signal).view other = db.view other := by
  rw [view_consumeSignal, View.updateSignals_away, View.updateSteps_away]
  · simp [Ne.symm different]
  · exact rows.step_away member (by omega)
  · exact rows.signal_away signalMember (by omega)

theorem view_completeJob_away (rows : db.Rows) {job : Job} (leaseVersion : Option Int)
    (outcome : Option String) (member : job ∈ db.workflow.jobs) {other : Nat}
    (different : other ≠ job.processId) :
    (db.completeJob job leaseVersion outcome).view other = db.view other := by
  obtain ⟨step, stepMember, runs, owns⟩ := rows.jobStep member
  rw [view_completeJob, ← runs, View.updateJobs_away, View.updateSteps_away]
  · simp [Ne.symm different]
  · exact rows.step_away stepMember (by omega)
  · exact rows.job_away member (by omega)

theorem view_leaseJob_away (rows : db.Rows) {job : Job} (owner : String) (leaseMs : Option Int)
    (member : job ∈ db.workflow.jobs) {other : Nat} (different : other ≠ job.processId) :
    (db.leaseJob owner leaseMs job).view other = db.view other := by
  obtain ⟨step, stepMember, runs, owns⟩ := rows.jobStep member
  rw [view_leaseJob, ← runs, View.updateSteps_away, View.updateJobs_away]
  · exact rows.job_away member (by omega)
  · exact rows.step_away stepMember (by omega)

theorem view_scheduleRetry_away (rows : db.Rows) {job : Job} (nextAttemptAt : Option Time)
    (member : job ∈ db.workflow.jobs) {other : Nat} (different : other ≠ job.processId) :
    (db.scheduleRetry job.id nextAttemptAt).view other = db.view other := by
  rw [view_scheduleRetry, View.updateJobs_away]
  exact rows.job_away member (by omega)

theorem view_buryJob_away (rows : db.Rows) {job : Job} (member : job ∈ db.workflow.jobs)
    {other : Nat} (different : other ≠ job.processId) :
    (db.buryJob job).view other = db.view other := by
  obtain ⟨step, stepMember, runs, owns⟩ := rows.jobStep member
  rw [view_buryJob, ← runs, if_neg different, View.updateJobs_away, View.updateSteps_away]
  · simp [Ne.symm different]
  · exact rows.step_away stepMember (by omega)
  · exact rows.job_away member (by omega)

theorem view_completeManual_away (rows : db.Rows) {step : StepInstance} {owner : Nat}
    (decision : String) (member : step ∈ db.workflow.steps) (owns : step.processId = owner)
    {other : Nat} (different : other ≠ owner) :
    (db.completeManual owner step.id decision).view other = db.view other := by
  rw [view_completeManual, View.updateSteps_away]
  · simp [Ne.symm different]
  · exact rows.step_away member (by omega)

theorem same_keys {row job : Job} (same : row.fixed = job.fixed) :
    row.id = job.id ∧ row.processId = job.processId ∧ row.stepInstanceId = job.stepInstanceId := by
  simp only [Job.fixed, Job.mk.injEq] at same
  exact ⟨same.1, same.2.1, same.2.2.1⟩

theorem buryJob_congr {row job : Job} (same : row.fixed = job.fixed) :
    db.buryJob job = db.buryJob row := by
  obtain ⟨idSame, ownerSame, stepSame⟩ := same_keys same
  simp only [buryJob, idSame, ownerSame, stepSame]

theorem startRows (rows : db.Rows) (flowName : String) (flowVersion : Int) (businessKey : String)
    (data : Json) : ((db.insertProcess flowName flowVersion businessKey data).insertEvent db.nextId
      none .processStarted).Rows := by
  have entered := @PaymentWorkflow.Rows.insertProcess _ _ _ rows
    ⟨db.nextId, flowName, flowVersion, businessKey, .created, none, data⟩ rfl
  simpa [Db.Rows, fixed_insertEvent, fixed_insertProcess] using entered

theorem Rows.of_fixed {later : Db} (rows : db.Rows) (config : later.config = db.config)
    (fixed : later.fixed = db.fixed) (bound : db.nextId ≤ later.nextId) : later.Rows := by
  rw [Db.Rows, config, fixed]
  exact PaymentWorkflow.Rows.mono rows bound

theorem consumeSignal_rows (rows : db.Rows) (processId stepInstanceId : Nat)
    (outcome : Option String) (signal : Signal) :
    (db.consumeSignal processId stepInstanceId outcome signal).Rows :=
  rows.of_fixed rfl fixed_consumeSignal (Nat.le_refl _)

theorem completeJob_rows (rows : db.Rows) (job : Job) (leaseVersion : Option Int)
    (outcome : Option String) : (db.completeJob job leaseVersion outcome).Rows :=
  rows.of_fixed rfl fixed_completeJob (Nat.le_refl _)

theorem decide_rows (rows : db.Rows) (processId stepInstanceId : Nat)
    (principal reasonHash : Option String) (outcome : DecisionOutcome) (decision : String) :
    ((db.insertDecision processId stepInstanceId .manual principal reasonHash outcome
      none).completeManual processId stepInstanceId decision).Rows :=
  rows.of_fixed rfl fixed_completeManual (Nat.le_succ _)

/-! What is live in the process a move is about, once its step is over. -/

theorem consumeSignal_idle (sound : db.Sound) {process : Process} {step : StepInstance}
    (outcome : Option String) (signal : Signal) (owner : process ∈ db.workflow.processes)
    (member : step ∈ db.workflow.steps) (owns : step.processId = process.id)
    (waits : step.stepType = .waitSignal) (waiting : step.state = .waiting) :
    ((db.consumeSignal process.id step.id outcome signal).view process.id).liveSteps = [] ∧
      ((db.consumeSignal process.id step.id outcome signal).view process.id).liveJobs = [] := by
  obtain ⟨_, steps, jobs, _⟩ := (sound.settled process.id).of_waiting (sound.rows.process? owner)
    (mem_view_steps.mpr ⟨member, owns⟩) waiting (by rw [waits]; simp)
  rw [view_consumeSignal]
  constructor
  · rw [View.liveSteps_log, View.liveSteps_updateSteps_leave (fun _ => rfl)]
    show (db.view process.id).liveSteps.filter _ = []
    simp [steps]
  · exact jobs

theorem completeManual_idle (sound : db.Sound) {process : Process} {step : StepInstance}
    (decision : String) (owner : process ∈ db.workflow.processes)
    (member : step ∈ db.workflow.steps) (owns : step.processId = process.id)
    (manual : step.stepType = .manual) (waiting : step.state = .waiting) :
    ((db.completeManual process.id step.id decision).view process.id).liveSteps = [] ∧
      ((db.completeManual process.id step.id decision).view process.id).liveJobs = [] := by
  obtain ⟨_, steps, jobs, _⟩ := (sound.settled process.id).of_waiting (sound.rows.process? owner)
    (mem_view_steps.mpr ⟨member, owns⟩) waiting (by rw [manual]; simp)
  rw [view_completeManual]
  constructor
  · rw [View.liveSteps_log, View.liveSteps_updateSteps_leave (fun _ => rfl)]
    simp [steps]
  · exact jobs

/-- The process of a live job runs its step, and nothing else of it is live. -/
theorem Sound.running (sound : db.Sound) {job : Job} (member : job ∈ db.workflow.jobs)
    (live : job.state.live = true) :
    ∃ process ∈ db.workflow.processes, process.id = job.processId ∧
      ∃ step ∈ db.workflow.steps, step.id = job.stepInstanceId ∧ step.processId = job.processId ∧
        process.state = .running ∧ process.currentStepKey = some step.stepKey ∧
          step.stepType = .automatic ∧ (db.view job.processId).liveSteps = [step] ∧
            (db.view job.processId).liveJobs = [job] := by
  obtain ⟨step, stepMember, runs, owns⟩ := sound.rows.jobStep member
  obtain ⟨process, processMember, processOwns, _⟩ := sound.rows.stepDefined stepMember
  have found : (db.view job.processId).process = some process := by
    rw [← owns, ← processOwns]
    exact sound.rows.process? processMember
  obtain ⟨other, state, current, automatic, same, steps, jobs⟩ :=
    (sound.settled job.processId).running_of_job found (mem_view_jobs.mpr ⟨member, rfl⟩) live
  have otherMember : other ∈ (db.view job.processId).liveSteps := by rw [steps]; simp
  have otherRow := (mem_view_steps.mp (List.mem_filter.mp otherMember).1).1
  have equal : other = step :=
    Table.key_unique sound.rows.stepIds otherRow stepMember (by omega)
  subst equal
  exact ⟨process, processMember, processOwns.trans owns, other, stepMember, runs, owns, state,
    current, automatic, steps, jobs⟩

theorem completeJob_idle (sound : db.Sound) {job : Job} (leaseVersion : Option Int)
    (outcome : Option String) (member : job ∈ db.workflow.jobs) (live : job.state.live = true) :
    ((db.completeJob job leaseVersion outcome).view job.processId).liveSteps = [] ∧
      ((db.completeJob job leaseVersion outcome).view job.processId).liveJobs = [] := by
  obtain ⟨_, _, _, step, _, runs, _, _, _, _, steps, jobs⟩ := sound.running member live
  rw [view_completeJob]
  constructor
  · rw [View.liveSteps_log, View.liveSteps_updateSteps_leave (fun _ => rfl)]
    show (db.view job.processId).liveSteps.filter _ = []
    simp [steps, runs]
  · rw [View.liveJobs_log]
    show ((db.view job.processId).updateJobs job.id _).liveJobs = []
    rw [View.liveJobs_updateJobs_leave (fun _ => rfl)]
    simp [jobs]

theorem buryJob_settled (sound : db.Sound) {job : Job} (member : job ∈ db.workflow.jobs)
    (live : job.state.live = true) : ((db.buryJob job).view job.processId).Settled := by
  obtain ⟨_, _, _, step, _, runs, _, _, _, _, steps, jobs⟩ := sound.running member live
  rw [view_buryJob, if_pos rfl]
  intro process found
  have ended : process.state = .failed := by
    simp only [View.log, View.updateSteps, View.updateJobs, View.updateProcess,
      Option.map_eq_some_iff] at found
    obtain ⟨before, _, rfl⟩ := found
    rfl
  have noSteps : (((((db.view job.processId).updateProcess fun row =>
      { row with state := .failed }).updateJobs job.id fun row =>
        { row with state := .dead, leaseOwner := none, leaseUntil := none }).updateSteps
          job.stepInstanceId fun row => { row with state := .failed })).liveSteps = [] := by
    rw [View.liveSteps_updateSteps_leave (fun _ => rfl)]
    show (db.view job.processId).liveSteps.filter _ = []
    simp [steps, runs]
  have noJobs : ((((db.view job.processId).updateProcess fun row =>
      { row with state := .failed }).updateJobs job.id fun row =>
        { row with state := .dead, leaseOwner := none, leaseUntil := none })).liveJobs = [] := by
    rw [View.liveJobs_updateJobs_leave (fun _ => rfl)]
    show (db.view job.processId).liveJobs.filter _ = []
    simp [jobs]
  rw [View.liveSteps_log, noSteps, View.liveJobs_log]
  show Shape process [] (View.liveJobs (View.updateJobs _ _ _))
  rw [noJobs]
  exact .ended (.inr ended)

theorem leaseJob_settled (sound : db.Sound) {job : Job} (owner : String) (leaseMs : Option Int)
    (member : job ∈ db.workflow.jobs) (live : job.state.live = true) :
    ((db.leaseJob owner leaseMs job).view job.processId).Settled := by
  obtain ⟨process, processMember, processOwns, step, stepMember, runs, owns, state, current,
    automatic, steps, jobs⟩ := sound.running member live
  have stepLive : step.state.live = true := by
    have inside : step ∈ (db.view job.processId).liveSteps := by rw [steps]; simp
    exact (List.mem_filter.mp inside).2
  rw [view_leaseJob]
  intro found foundEq
  have same : found = process := by
    have here : (db.view job.processId).process = some found := foundEq
    rw [← processOwns, show (db.view process.id).process = some process from
      sound.rows.process? processMember] at here
    exact (Option.some.inj here).symm
  subst same
  have stepsAfter : ((db.view job.processId).updateSteps job.stepInstanceId fun row =>
      { row with state := .running }).liveSteps = [{ step with state := .running }] := by
    rw [View.liveSteps_updateSteps_stay, steps]
    · simp [runs]
    · intro row rowMember sameId
      have equal := Table.key_unique sound.rows.stepIds (mem_view_steps.mp rowMember).1 stepMember
        (sameId.trans runs.symm)
      rw [equal, stepLive]
      rfl
  have jobsAfter : (((db.view job.processId).updateSteps job.stepInstanceId fun row =>
      { row with state := .running }).updateJobs job.id fun row =>
        { row with
          state := .leased, leaseOwner := some owner, leaseVersion := job.leaseVersion + 1
          leaseUntil := leaseMs.map fun count => db.now + milliseconds count, attemptCount := job.attemptCount + 1
          nextAttemptAt := none }).liveJobs =
      [{ job with
          state := .leased, leaseOwner := some owner, leaseVersion := job.leaseVersion + 1
          leaseUntil := leaseMs.map fun count => db.now + milliseconds count, attemptCount := job.attemptCount + 1
          nextAttemptAt := none }] := by
    rw [View.liveJobs_updateJobs_stay]
    · show Table.update _ _ (db.view job.processId).liveJobs = _
      simp [jobs]
    · intro row rowMember sameId
      have equal := Table.key_unique sound.rows.jobIds (mem_view_jobs.mp rowMember).1 member sameId
      rw [equal, live]
      rfl
  rw [jobsAfter]
  show Shape found (View.liveSteps (View.updateSteps _ _ _)) _
  rw [stepsAfter]
  exact .running _ _ state current automatic runs.symm

theorem scheduleRetry_settled (sound : db.Sound) {job : Job} (nextAttemptAt : Option Time)
    (member : job ∈ db.workflow.jobs) (live : job.state.live = true) :
    ((db.scheduleRetry job.id nextAttemptAt).view job.processId).Settled := by
  obtain ⟨process, processMember, processOwns, step, stepMember, runs, owns, state, current,
    automatic, steps, jobs⟩ := sound.running member live
  rw [view_scheduleRetry]
  intro found foundEq
  have same : found = process := by
    have here : (db.view job.processId).process = some found := foundEq
    rw [← processOwns, show (db.view process.id).process = some process from
      sound.rows.process? processMember] at here
    exact (Option.some.inj here).symm
  subst same
  rw [View.liveJobs_updateJobs_stay, jobs]
  · show Shape found (db.view job.processId).liveSteps _
    simp only [steps, Table.update_cons, Table.update_nil, decide_true, if_true]
    exact .running _ _ state current automatic runs.symm
  · intro row rowMember sameId
    have equal := Table.key_unique sound.rows.jobIds (mem_view_jobs.mp rowMember).1 member sameId
    rw [equal, live]
    rfl

end Db

namespace EngineMove

variable {processId : Nat} {db later : Db}

theorem config_eq (move : EngineMove processId db later) : later.config = db.config := by
  cases move with
  | started | signalled | finished | decided => exact (Db.placeStep_config _ _ _).trans rfl
  | _ => rfl

theorem digest_eq (move : EngineMove processId db later) : later.digest = db.digest := by
  cases move with
  | started | signalled | finished | decided => exact (Db.placeStep_digest _ _ _).trans rfl
  | _ => rfl

/-- Of the payment tables the engine only writes decisions. -/
theorem operations_eq (move : EngineMove processId db later) :
    later.payment.operations = db.payment.operations ∧
      later.payment.operationEvents = db.payment.operationEvents := by
  cases move with
  | started | signalled | finished | decided => simp only [Db.placeStep_payment]; exact ⟨rfl, rfl⟩
  | _ => exact ⟨rfl, rfl⟩

/-- Of the delivery tables the engine only writes when a message was applied. -/
theorem outbox_eq (move : EngineMove processId db later) :
    later.delivery.externalRequests = db.delivery.externalRequests ∧
      later.delivery.outbox = db.delivery.outbox := by
  cases move with
  | started | signalled | finished | decided => simp only [Db.placeStep_delivery]; exact ⟨rfl, rfl⟩
  | _ => exact ⟨rfl, rfl⟩

theorem nextId_le (move : EngineMove processId db later) : db.nextId ≤ later.nextId := by
  cases move with
  | started | decided => exact Db.nextId_le_placeStep (Nat.le_succ _)
  | signalled | finished => exact Db.nextId_le_placeStep (Nat.le_refl _)
  | leased => exact Nat.le_succ _
  | _ => exact Nat.le_refl _

theorem frame (move : EngineMove processId db later) (rows : db.Rows) {other : Nat}
    (different : other ≠ processId) : later.view other = db.view other := by
  cases move with
  | ticked => rfl
  | swept => rfl
  | applied => rfl
  | started absent active defined =>
      rw [Db.view_placeStep _ _ _ (Db.startRows rows _ _ _ _).stepBound, if_neg different,
        Db.view_insertEvent, Db.view_insertProcess _ _ _ _ _ rows.processBound, if_neg different]
      simp [Ne.symm different]
  | stored =>
      rw [Db.view_insertEvent, Db.view_insertSignal]
      simp [Ne.symm different]
  | signalled owner member owns waits waiting defined ready leads placed =>
      obtain ⟨signalMember, signalOwns, _⟩ := Db.readySignal?_mem ready
      rw [Db.view_placeStep _ _ _ (Db.consumeSignal_rows rows _ _ _ _).stepBound,
        if_neg different, Db.view_consumeSignal_away rows _ member owns signalMember signalOwns
          different]
  | leased owner leaseMs member => exact Db.view_leaseJob_away rows owner leaseMs member different
  | disabled attemptId member live same =>
      rw [Db.disableJob_eq, Db.buryJob_congr same]
      exact @Db.view_buryJob_away (db.updateAttempts _ _) rows _ member _
        (by rw [(Db.same_keys same).2.1]; exact different)
  | finished member held stepMember runs processMember owns leads placed =>
      rw [Db.view_placeStep _ _ _ (Db.completeJob_rows rows _ _ _).stepBound, if_neg different,
        Db.view_completeJob_away rows _ _ member different]
  | retried errorCode nextAttemptAt member =>
      exact @Db.view_scheduleRetry_away (db.failAttempt _ _ errorCode) rows _ nextAttemptAt
        member _ different
  | died errorCode member =>
      exact @Db.view_buryJob_away (db.failAttempt _ _ errorCode) rows _ member _ different
  | decided principal reasonHash processMember member owns manual waiting known undecided leads
      placed =>
      rw [Db.view_placeStep _ _ _ (Db.decide_rows rows _ _ _ _ _ _).stepBound, if_neg different]
      exact @Db.view_completeManual_away (db.insertDecision _ _ _ principal reasonHash _ _)
        (rows.of_fixed rfl rfl (Nat.le_succ _)) _ _ _ member owns _ different

theorem rows (move : EngineMove processId db later) (sound : db.Sound) : later.Rows := by
  have rows := sound.rows
  cases move with
  | ticked => exact rows
  | swept => exact rows
  | applied => exact rows
  | @started _ flowName businessKey data version definition absent active defined =>
      have key := stepDefinition?_key defined
      exact @Db.Rows.placeStep _ (Db.startRows rows flowName version.version businessKey data)
        ⟨_, flowName, version.version, businessKey, .created, none, data⟩ _ (by simp)
        (by rw [← key.2.2] at defined; exact defined)
  | @stored _ process signalType messageId bodyHash owner declared fresh unused =>
      have entered := @PaymentWorkflow.Rows.insertSignal _ _ _ rows
        ⟨messageId, process.id, signalType, bodyHash, .accepted, db.now⟩
        (by
          intro row member
          obtain ⟨signal, signalMember, rfl⟩ := List.mem_map.mp member
          exact Table.lookup_eq_none.mp fresh signal signalMember)
        ⟨process.fixed, List.mem_map_of_mem owner, rfl⟩
      simpa [Db.Rows, Db.fixed_insertEvent, Db.fixed_insertSignal] using entered
  | signalled owner member owns waits waiting defined ready leads placed =>
      have key := stepDefinition?_key placed
      exact (Db.consumeSignal_rows rows _ _ _ _).placeStep owner (by rw [key.2.2]; exact placed)
  | leased => exact rows.of_fixed rfl Db.fixed_leaseJob (Nat.le_succ _)
  | disabled => exact rows.of_fixed rfl Db.fixed_buryJob (Nat.le_refl _)
  | @finished _ job step process owner outcome leaseVersion transition next member held stepMember
      runs processMember owns leads placed =>
      have key := stepDefinition?_key placed
      rw [← owns]
      exact (Db.completeJob_rows rows job leaseVersion outcome).placeStep processMember
        (by rw [key.2.2]; exact placed)
  | retried => exact rows.of_fixed rfl Db.fixed_scheduleRetry (Nat.le_refl _)
  | died => exact rows.of_fixed rfl Db.fixed_buryJob (Nat.le_refl _)
  | decided principal reasonHash processMember member owns manual waiting known undecided leads
      placed =>
      have key := stepDefinition?_key placed
      exact (Db.decide_rows rows _ _ principal reasonHash _ _).placeStep processMember
        (by rw [key.2.2]; exact placed)

theorem settled (move : EngineMove processId db later) (sound : db.Sound) :
    (later.view processId).Settled := by
  have rows := sound.rows
  have leasedLive : ∀ {job : Job} {owner : Option String} {leaseVersion : Option Int},
      job.leaseIsStale owner leaseVersion = false → job.state.live = true := by
    intro job owner leaseVersion held
    rw [(held_leased held).1]
    rfl
  cases move with
  | ticked => exact sound.settled processId
  | swept => exact sound.settled processId
  | applied => exact sound.settled processId
  | started absent active defined =>
      rw [Db.view_placeStep _ _ _ (Db.startRows rows _ _ _ _).stepBound, if_pos rfl]
      obtain ⟨_, noSteps, noJobs, _⟩ := rows.view_fresh
      apply View.settled_place
      · rw [Db.view_insertEvent, Db.view_insertProcess _ _ _ _ _ rows.processBound, if_pos rfl]
        simp [View.liveSteps, View.log, noSteps]
      · rw [Db.view_insertEvent, Db.view_insertProcess _ _ _ _ _ rows.processBound, if_pos rfl]
        simp [View.liveJobs, View.log, noJobs]
  | stored owner declared fresh unused =>
      rw [Db.view_insertEvent, Db.view_insertSignal]
      exact sound.settled _
  | signalled owner member owns waits waiting defined ready leads placed =>
      rw [Db.view_placeStep _ _ _ (Db.consumeSignal_rows rows _ _ _ _).stepBound, if_pos rfl]
      apply View.settled_place
      · exact (Db.consumeSignal_idle sound _ _ owner member owns waits waiting).1
      · exact (Db.consumeSignal_idle sound _ _ owner member owns waits waiting).2
  | leased owner leaseMs member live => exact Db.leaseJob_settled sound owner leaseMs member live
  | disabled attemptId member live same =>
      rw [Db.disableJob_eq, Db.buryJob_congr same, ← (Db.same_keys same).2.1]
      exact @Db.buryJob_settled (db.updateAttempts _ _) ⟨rows, sound.settled⟩ _ member
        (by rw [live]; rfl)
  | finished member held stepMember runs processMember owns leads placed =>
      rw [Db.view_placeStep _ _ _ (Db.completeJob_rows rows _ _ _).stepBound, if_pos rfl]
      apply View.settled_place
      · exact (Db.completeJob_idle sound _ _ member (leasedLive held)).1
      · exact (Db.completeJob_idle sound _ _ member (leasedLive held)).2
  | retried errorCode nextAttemptAt member held =>
      exact @Db.scheduleRetry_settled (db.failAttempt _ _ errorCode) ⟨rows, sound.settled⟩ _
        nextAttemptAt member (leasedLive held)
  | died errorCode member held =>
      exact @Db.buryJob_settled (db.failAttempt _ _ errorCode) ⟨rows, sound.settled⟩ _ member
        (leasedLive held)
  | @decided _ process step decision outcome _ _ principal reasonHash processMember member owns
      manual waiting known undecided leads placed =>
      have idle := @Db.completeManual_idle (db.insertDecision process.id step.id .manual
        principal reasonHash outcome none) ⟨rows.of_fixed rfl rfl (Nat.le_succ _), sound.settled⟩
        _ _ decision processMember member owns manual waiting
      rw [Db.view_placeStep _ _ _ (Db.decide_rows rows _ _ _ _ _ _).stepBound, if_pos rfl]
      exact View.settled_place _ _ _ _ idle.1 idle.2

theorem sound (move : EngineMove processId db later) (sound : db.Sound) : later.Sound where
  rows := move.rows sound
  settled := by
    intro other
    by_cases same : other = processId
    · subst same
      exact move.settled sound
    · rw [move.frame sound.rows same]
      exact sound.settled other

end EngineMove

theorem EngineMoves.sound {processId : Nat} {db later : Db} (moves : EngineMoves processId db later)
    (sound : db.Sound) : later.Sound := by
  induction moves with
  | refl => exact sound
  | tail _ move ih => exact move.sound ih

theorem EngineMoves.frame {processId : Nat} {db later : Db}
    (moves : EngineMoves processId db later) (sound : db.Sound) {other : Nat}
    (different : other ≠ processId) : later.view other = db.view other := by
  induction moves with
  | refl => rfl
  | tail earlier move ih => rw [move.frame (EngineMoves.sound earlier sound).rows different, ih]

theorem EngineMoves.operations_eq {processId : Nat} {db later : Db}
    (moves : EngineMoves processId db later) :
    later.payment.operations = db.payment.operations ∧
      later.payment.operationEvents = db.payment.operationEvents := by
  induction moves with
  | refl => exact ⟨rfl, rfl⟩
  | tail _ move ih => rw [move.operations_eq.1, move.operations_eq.2]; exact ih

theorem EngineMoves.outbox_eq {processId : Nat} {db later : Db}
    (moves : EngineMoves processId db later) :
    later.delivery.externalRequests = db.delivery.externalRequests ∧
      later.delivery.outbox = db.delivery.outbox := by
  induction moves with
  | refl => exact ⟨rfl, rfl⟩
  | tail _ move ih => rw [move.outbox_eq.1, move.outbox_eq.2]; exact ih

theorem EngineMoves.nextId_le {processId : Nat} {db later : Db}
    (moves : EngineMoves processId db later) : db.nextId ≤ later.nextId := by
  induction moves with
  | refl => exact Nat.le_refl _
  | tail _ move ih => exact Nat.le_trans ih move.nextId_le

theorem EngineMoves.config_eq {processId : Nat} {db later : Db}
    (moves : EngineMoves processId db later) : later.config = db.config := by
  induction moves with
  | refl => rfl
  | tail _ move ih => rw [move.config_eq, ih]

end PaymentWorkflow
