import PaymentWorkflow.OrdinaryCalls
import PaymentWorkflow.LedgerProofs
import PaymentWorkflow.TrailProofs

/-!
How the flows of payments end: only the job of a closing action takes a process to its end, and
then the process stays as it is.
-/

namespace PaymentWorkflow

def closingAction? : String → Option (Target × OperationStatus)
  | "complete_operation" => some (.completeV1, .completed)
  | "approve_operation" => some (.approveV1, .completed)
  | "reject_operation" => some (.rejectV1, .rejected)
  | _ => none

def verdict? : String → Option OperationStatus
  | "COMPLETED" | "WITHIN_LIMIT" | "APPROVED" => some .completed
  | "REJECTED" => some .rejected
  | _ => none

def View.branching (view : View) : Option String :=
  (view.steps.dropLast.dropLast.getLast?).bind StepInstance.outcome

namespace Config

def pays (config : Config) (flowName : String) : Bool :=
  config.flowBindings.any fun row => row.flowName = flowName

def leadingTargets : List Target := [.validateV1, .prepareExternalV1, .applyReceiptV1, .checkLimitV1]

/-- The task gives its action the operation alone, and closes it only where its step does. -/
def performs (config : Config) (row : TaskDefinition) : Bool :=
  row.task.inputMapping = [("/operationId", "/operationId")] && row.task.inputConstants.isEmpty &&
    (config.action? row.task.module row.task.action row.task.actionVersion).all fun action =>
      (target? action.targetSchema action.targetFunction).all fun target =>
        match closingAction? row.stepKey with
        | some closing => target = closing.1
        | none => target ∈ leadingTargets

structure PaymentFlows (config : Config) : Prop where
  guarded : config.Guarded
  starts : ∀ version ∈ config.flowVersions, config.pays version.flowName = true →
    closingAction? version.map.startStep = none ∧ ∀ row ∈ config.stepDefinitions,
      row.flowName = version.flowName → row.flowVersion = version.version →
        row.stepKey = version.map.startStep → row.stepType ≠ .endStep
  ends : ∀ transition ∈ config.transitionDefinitions, config.pays transition.flowName = true →
    ∀ row ∈ config.stepDefinitions, row.flowName = transition.flowName →
      row.flowVersion = transition.flowVersion → row.stepKey = transition.toStepKey →
        (row.stepType = .endStep ↔ (closingAction? transition.fromStepKey).isSome = true)
  automatic : ∀ row ∈ config.stepDefinitions, config.pays row.flowName = true →
    (closingAction? row.stepKey).isSome = true → row.stepType = .automatic
  verdicts : ∀ transition ∈ config.transitionDefinitions,
    config.pays transition.flowName = true → ∀ closing ∈ closingAction? transition.toStepKey,
      verdict? transition.outcome = some closing.2
  tasks : ∀ row ∈ config.taskDefinitions, config.pays row.flowName = true →
    config.performs row = true
  -- `approve_v1` asks for a decision even where the kind of the operation calls for a receipt
  approvals : ∀ binding ∈ config.flowBindings, binding.operationKind = .paymentExecution →
    ∀ row ∈ config.taskDefinitions, row.flowName = binding.flowName →
      ∀ closing ∈ closingAction? row.stepKey, closing.1 ≠ .approveV1

end Config

theorem Seed.paymentFlows : Seed.config.PaymentFlows := by
  constructor <;> decide +kernel

section Moves

variable {processId : Nat} {db later : Db} {process : Process}

theorem Db.Sound.idle (sound : db.Sound) (found : (db.view process.id).process = some process)
    (completed : process.state = .completed) {job : Job} (member : job ∈ db.workflow.jobs)
    (live : job.state.live = true) : job.processId ≠ process.id := by
  intro same
  obtain ⟨other, _, here, _, state, _⟩ := sound.view_running member live
  rw [same, found] at here
  cases here
  rw [completed] at state
  cases state

theorem Db.Sound.unwaiting (sound : db.Sound) (member : process ∈ db.workflow.processes)
    (completed : process.state = .completed) {step : StepInstance}
    (stepMember : step ∈ db.workflow.steps) (owns : step.processId = process.id)
    (waiting : step.state = .waiting)
    (type : step.stepType = .waitSignal ∨ step.stepType = .manual) : False := by
  have notAutomatic : step.stepType ≠ .automatic := by
    rcases type with type | type <;> rw [type] <;> simp
  obtain ⟨_, _, _, waits, manual⟩ := (sound.settled process.id).of_waiting
    (sound.rows.process? member) (Db.mem_view_steps.mpr ⟨stepMember, owns⟩) waiting notAutomatic
  rcases type with type | type
  · have state := waits type
    rw [completed] at state
    cases state
  · have state := manual type
    rw [completed] at state
    cases state

theorem leased_live {job : Job} {owner : Option String} {leaseVersion : Option Int}
    (held : job.leaseIsStale owner leaseVersion = false) : job.state.live = true := by
  rw [(held_leased held).1]
  rfl

theorem EngineMove.completed_stays (move : EngineMove processId db later) (sound : db.Sound)
    (found : (db.view process.id).process = some process) (completed : process.state = .completed) :
    (later.view process.id).process = some process ∧
      (later.view process.id).steps = (db.view process.id).steps := by
  by_cases own : process.id = processId
  swap
  · rw [move.frame sound.rows own]
    exact ⟨found, rfl⟩
  have member := (Table.lookup_mem found).1
  cases move with
  | ticked | swept | applied => exact ⟨found, rfl⟩
  | started =>
      have bound := sound.rows.processBound process member
      omega
  | stored =>
      rw [Db.view_insertEvent, Db.view_insertSignal]
      exact ⟨found, rfl⟩
  | signalled owner stepMember owns waits waiting =>
      exact (sound.unwaiting member completed stepMember (owns.trans own.symm) waiting
        (.inl waits)).elim
  | leased owner leaseMs jobMember live =>
      exact absurd own.symm (sound.idle found completed jobMember live)
  | disabled attemptId jobMember live same =>
      refine absurd (Eq.trans (Db.same_keys same).2.1 own.symm)
        (sound.idle found completed jobMember ?_)
      rw [live]
      rfl
  | finished jobMember held | retried _ _ jobMember held | died _ jobMember held =>
      exact absurd own.symm (sound.idle found completed jobMember (leased_live held))
  | decided _ _ owner stepMember owns manual waiting =>
      exact (sound.unwaiting member completed stepMember (owns.trans own.symm) waiting
        (.inr manual)).elim

/-- A step that waits for no worker leads to no end. -/
theorem Config.PaymentFlows.leads_on (flows : db.config.PaymentFlows) (rows : db.Rows)
    (member : process ∈ db.workflow.processes) (pays : db.config.pays process.flowName = true)
    {step : StepInstance} (stepMember : step ∈ db.workflow.steps)
    (owns : step.processId = process.id) (type : step.stepType ≠ .automatic)
    {outcome : Option String} {transition : TransitionDefinition} {next : StepDefinition}
    (leads : db.config.transition? process.flowName process.flowVersion (some step.stepKey)
      outcome = some transition)
    (placed : db.config.stepDefinition? process.flowName process.flowVersion
      transition.toStepKey = some next) : next.stepType ≠ .endStep := by
  intro ending
  obtain ⟨definition, defined, same⟩ := rows.definition stepMember member owns.symm
  have source := List.find?_some defined
  have arc := List.find?_some leads
  have target := List.find?_some placed
  simp only [decide_eq_true_eq, Option.some.injEq] at source arc target
  have closes := (flows.ends transition (List.mem_of_find?_eq_some leads)
    (by rw [arc.1]; exact pays) next (List.mem_of_find?_eq_some placed)
    (target.1.trans arc.1.symm) (target.2.1.trans arc.2.1.symm) target.2.2).mp ending
  have automatic := flows.automatic definition (List.mem_of_find?_eq_some defined)
    (by rw [source.1]; exact pays) (by rw [source.2.2, ← arc.2.2.1]; exact closes)
  exact type (same.symm.trans automatic)

theorem Db.placedProcess_completed {definition : StepDefinition} {before : Process}
    (completed : (Db.placedProcess definition before).state = .completed) :
    definition.stepType = .endStep := by
  rcases definition with ⟨_, _, _, stepType, _⟩
  cases stepType
  case endStep => rfl
  all_goals cases completed

theorem Db.buryJob_completed (db : Db) {job : Job}
    (found : ((db.buryJob job).view job.processId).process = some process) :
    process.state = .failed := by
  rw [Db.view_buryJob, if_pos rfl] at found
  obtain ⟨before, _, rfl⟩ := Option.map_eq_some_iff.mp found
  rfl

theorem Db.succeeded_of_leased (rows : db.Rows) {job : Job} (member : job ∈ db.workflow.jobs)
    (leased : job.state = .leased) : db.succeeded job.id = false := by
  rw [← Bool.not_eq_true, Db.succeeded_iff]
  rintro ⟨other, inside, same, done⟩
  rw [Table.key_unique rows.jobIds inside member same, leased] at done
  cases done

theorem Db.completeJob_succeeded {job : Job} (member : job ∈ db.workflow.jobs)
    (leaseVersion : Option Int) (outcome : Option String) (next : StepDefinition) :
    ((db.completeJob job leaseVersion outcome).placeStep job.processId next).succeeded job.id =
      true := by
  rw [Db.succeeded_iff, Db.placeStep_jobs]
  refine ⟨job.succeed, List.mem_append_left _ (Table.mem_update.mpr ⟨job, member, ?_⟩), rfl, rfl⟩
  simp [Job.succeed]

/-- A payment the engine completes had the job of its last action finished in the same move. -/
theorem EngineMove.completes (move : EngineMove processId db later) (sound : db.Sound)
    (flows : db.config.PaymentFlows) (found : (later.view process.id).process = some process)
    (pays : db.config.pays process.flowName = true) (completed : process.state = .completed) :
    (db.view process.id).process = some process ∨
      ∃ jobId, db.succeeded jobId = false ∧ later.succeeded jobId = true := by
  have rows := sound.rows
  by_cases own : process.id = processId
  swap
  · rw [move.frame rows own] at found
    exact .inl found
  rw [own] at found ⊢
  cases move with
  | ticked | swept | applied => exact .inl found
  | stored =>
      rw [Db.view_insertEvent, Db.view_insertSignal] at found
      exact .inl found
  | leased =>
      rw [Db.view_leaseJob] at found
      exact .inl found
  | retried errorCode =>
      rw [Db.view_scheduleRetry] at found
      exact .inl found
  | @disabled job row attemptId member live same =>
      rw [Db.disableJob_eq] at found
      rw [Db.buryJob_completed _ found] at completed
      cases completed
  | died =>
      rw [Db.buryJob_completed _ found] at completed
      cases completed
  | @started _ flowName businessKey data version definition absent active defined =>
      rw [Db.view_placeStep _ _ _ (Db.startRows rows _ _ _ _).stepBound, if_pos rfl,
        Db.view_insertEvent, Db.view_insertProcess _ _ _ _ _ rows.processBound, if_pos rfl] at found
      cases found
      have chosen := List.mem_filter.mp (Table.first_mem active)
      have row := List.find?_some defined
      simp only [decide_eq_true_eq] at chosen row
      have open_ := (flows.starts version chosen.1 (by rw [chosen.2.1]; exact pays)).2 definition
        (List.mem_of_find?_eq_some defined) (row.1.trans chosen.2.1.symm) row.2.1 row.2.2
      exact absurd (Db.placedProcess_completed completed) open_
  | @signalled _ runner step definition next signal transition owner member owns waits waiting
      defined ready leads placed =>
      rw [Db.view_placeStep _ _ _ (Db.consumeSignal_rows rows _ _ _ _).stepBound, if_pos rfl,
        Db.view_consumeSignal] at found
      have here : (db.view runner.id).process = some runner := rows.process? owner
      simp only [View.place, View.log, View.updateSteps, View.updateSignals, here,
        Option.map_some, Option.some.injEq] at found
      subst found
      obtain ⟨current, _⟩ := (sound.settled runner.id).of_waiting here
        (Db.mem_view_steps.mpr ⟨member, owns⟩) waiting (by rw [waits]; simp)
      rw [current] at leads
      exact absurd (Db.placedProcess_completed completed)
        (flows.leads_on rows owner pays member owns (by rw [waits]; simp) leads placed)
  | @decided _ runner step decision outcome transition next principal reasonHash owner member owns
      manual waiting known undecided leads placed =>
      rw [Db.view_placeStep _ _ _ (Db.decide_rows rows _ _ _ _ _ _).stepBound, if_pos rfl,
        Db.view_completeManual, Db.view_insertDecision] at found
      have here : (db.view runner.id).process = some runner := rows.process? owner
      simp only [View.place, View.log, View.updateSteps, here, Option.map_some,
        Option.some.injEq] at found
      subst found
      obtain ⟨current, _⟩ := (sound.settled runner.id).of_waiting here
        (Db.mem_view_steps.mpr ⟨member, owns⟩) waiting (by rw [manual]; simp)
      rw [current] at leads
      exact absurd (Db.placedProcess_completed completed)
        (flows.leads_on rows owner pays member owns (by rw [manual]; simp) leads placed)
  | @finished _ job step runner owner outcome leaseVersion transition next member held =>
      exact .inr ⟨job.id, Db.succeeded_of_leased rows member (held_leased held).1,
        Db.completeJob_succeeded member leaseVersion outcome next⟩

theorem Db.succeeded_update {jobId : Nat} {change : Job → Job}
    (jobs : later.workflow.jobs = Table.update (fun row => row.id = jobId) change db.workflow.jobs)
    (sameId : ∀ row, (change row).id = row.id)
    (stays : ∀ row ∈ db.workflow.jobs, row.id = jobId → row.state = .succeeded →
      (change row).state = .succeeded) {other : Nat} (done : db.succeeded other = true) :
    later.succeeded other = true := by
  obtain ⟨row, member, same, state⟩ := Db.succeeded_iff.mp done
  refine Db.succeeded_iff.mpr ⟨if row.id = jobId then change row else row, ?_, ?_⟩
  · rw [jobs]
    exact Table.mem_update.mpr ⟨row, member, by simp⟩
  · split
    · rename_i hit
      exact ⟨(sameId row).trans same, stays row member hit state⟩
    · exact ⟨same, state⟩

theorem Db.succeeded_placeStep (owner : Nat) (definition : StepDefinition) {other : Nat}
    (done : db.succeeded other = true) : (db.placeStep owner definition).succeeded other = true := by
  obtain ⟨row, member, facts⟩ := Db.succeeded_iff.mp done
  rw [Db.succeeded_iff, Db.placeStep_jobs]
  exact ⟨row, List.mem_append_left _ member, facts⟩

theorem EngineMove.succeeded_stays (move : EngineMove processId db later) (rows : db.Rows)
    {jobId : Nat} (done : db.succeeded jobId = true) : later.succeeded jobId = true := by
  have live_stays : ∀ {job : Job}, job ∈ db.workflow.jobs → job.state.live = true →
      ∀ row ∈ db.workflow.jobs, row.id = job.id → row.state = .succeeded → False := by
    intro job member live row inside same state
    rw [← Table.key_unique rows.jobIds inside member same, state] at live
    cases live
  cases move with
  | ticked | swept | applied | stored => exact done
  | started => exact Db.succeeded_placeStep _ _ done
  | signalled => exact Db.succeeded_placeStep _ _ done
  | decided => exact Db.succeeded_placeStep _ _ done
  | finished member held =>
      refine Db.succeeded_placeStep _ _ (Db.succeeded_update rfl ?_ ?_ done)
      · exact fun _ => rfl
      · exact fun _ _ _ _ => rfl
  | leased owner leaseMs member live =>
      refine Db.succeeded_update rfl ?_ ?_ done
      · exact fun _ => rfl
      · exact fun row inside same state => (live_stays member live row inside same state).elim
  | disabled attemptId member live same =>
      refine Db.succeeded_update rfl ?_ ?_ done
      · exact fun _ => rfl
      · intro row inside hit state
        rw [← (Db.same_keys same).1] at hit
        exact (live_stays member (by rw [live]; rfl) row inside hit state).elim
  | retried _ _ member held | died _ member held =>
      refine Db.succeeded_update rfl ?_ ?_ done
      · exact fun _ => rfl
      · exact fun row inside same state =>
          (live_stays member (leased_live held) row inside same state).elim

/-! Over chains of moves. -/

structure Db.Ends (process : Process) (db later : Db) : Prop where
  config : later.config = db.config
  succeeded : ∀ jobId, db.succeeded jobId = true → later.succeeded jobId = true
  stays : (db.view process.id).process = some process →
    (later.view process.id).process = some process ∧
      (later.view process.id).steps = (db.view process.id).steps
  reached : (later.view process.id).process = some process →
    (db.view process.id).process = some process ∨
      ∃ jobId, db.succeeded jobId = false ∧ later.succeeded jobId = true

theorem Db.Ends.trans {first second third : Db} (left : Db.Ends process first second)
    (right : Db.Ends process second third) : Db.Ends process first third where
  config := right.config.trans left.config
  succeeded := fun jobId done => right.succeeded jobId (left.succeeded jobId done)
  stays := by
    intro here
    obtain ⟨between, steps⟩ := left.stays here
    obtain ⟨last, more⟩ := right.stays between
    exact ⟨last, more.trans steps⟩
  reached := by
    intro here
    rcases right.reached here with between | ⟨jobId, open_, done⟩
    · rcases left.reached between with before | ⟨jobId, open_, done⟩
      · exact .inl before
      · exact .inr ⟨jobId, open_, right.succeeded jobId done⟩
    · refine .inr ⟨jobId, ?_, done⟩
      rw [← Bool.not_eq_true] at open_ ⊢
      exact fun earlier => open_ (left.succeeded jobId earlier)

theorem Db.Ends.of_workflow (config : later.config = db.config)
    (workflow : later.workflow = db.workflow) : Db.Ends process db later := by
  have view : later.view process.id = db.view process.id := by simp only [Db.view, workflow]
  refine ⟨config, ?_, ?_, ?_⟩
  · simp only [Db.succeeded, workflow]
    exact fun _ done => done
  · rw [view]
    exact fun here => ⟨here, rfl⟩
  · rw [view]
    exact .inl

theorem Db.Ends.before (ends : Db.Ends process db later)
    (succeeded : ∀ jobId, later.succeeded jobId = true → db.succeeded jobId = true)
    (found : (later.view process.id).process = some process) :
    (db.view process.id).process = some process := by
  rcases ends.reached found with before | ⟨jobId, open_, done⟩
  · exact before
  · rw [succeeded jobId done] at open_
    cases open_

theorem EngineMove.ends (move : EngineMove processId db later) (sound : db.Sound)
    (flows : db.config.PaymentFlows) (pays : db.config.pays process.flowName = true)
    (completed : process.state = .completed) : Db.Ends process db later where
  config := move.config_eq
  succeeded := fun _ => move.succeeded_stays sound.rows
  stays := fun here => move.completed_stays sound here completed
  reached := fun here => move.completes sound flows here pays completed

theorem EngineMoves.ends (moves : EngineMoves processId db later) (sound : db.Sound)
    (flows : db.config.PaymentFlows) (pays : db.config.pays process.flowName = true)
    (completed : process.state = .completed) : Db.Ends process db later := by
  induction moves with
  | refl => exact .of_workflow rfl rfl
  | tail earlier move ih =>
      refine ih.trans (move.ends (EngineMoves.sound earlier sound) ?_ ?_ completed)
      · rw [ih.config]
        exact flows
      · rw [ih.config]
        exact pays

theorem SystemMoves.ends (moves : SystemMoves db later) (steady : db.Steady)
    (flows : db.config.PaymentFlows) (pays : db.config.pays process.flowName = true)
    (completed : process.state = .completed) : Db.Ends process db later := by
  refine moves.invariant (Db.Ends process db) ?_ ?_ ?_ steady (.of_workflow rfl rfl)
  · intro owner before after sound _ ends move
    refine ends.trans (move.ends sound ?_ ?_ completed)
    · rw [ends.config]
      exact flows
    · rw [ends.config]
      exact pays
  · intro before after _ _ ends move
    exact ends.trans (.of_workflow move.config_eq move.workflow_eq)
  · intro target operation before after _ _ ends move
    exact ends.trans (.of_workflow move.config_eq move.workflow_eq)

end Moves

/-! A worker's finish of the job of a payment. -/

section Finish

variable {db later : Db}

def Db.Finishes (db : Db) (processId : Nat) (stepKey : String) : Prop :=
  ∀ process, (db.view processId).process = some process →
    match closingAction? stepKey with
    | none => process.state ≠ .completed
    | some closing => process.state = .completed ∧
        (db.view processId).branching.bind verdict? = some closing.2

/-- Where the trail of a process ends before a closing action, its last outcome is a verdict. -/
theorem Trail.verdict {config : Config} {view : View} {process : Process}
    {earlier : List StepInstance} {last : StepInstance}
    (trail : Trail config view process earlier last) (flows : config.PaymentFlows)
    (pays : config.pays process.flowName = true) {closing : Target × OperationStatus}
    (closes : closingAction? last.stepKey = some closing) :
    ∃ step, earlier.getLast? = some step ∧ step.outcome.bind verdict? = some closing.2 := by
  rcases List.eq_nil_or_concat earlier with rfl | ⟨before, step, rfl⟩
  · obtain ⟨version, member, named, _, start⟩ := trail.first
    simp only [List.nil_append, List.head?_cons, Option.map_some, Option.some.injEq] at start
    have none_ := (flows.starts version member (by rw [named]; exact pays)).1
    rw [← start, closes] at none_
    cases none_
  · refine ⟨step, by simp, ?_⟩
    obtain ⟨_, transition, located, target⟩ :=
      (List.isChain_append.mp trail.walk).2.2 step (by simp) last (by simp)
    have row := List.find?_some located
    simp only [decide_eq_true_eq] at row
    have verdict := flows.verdicts transition (List.mem_of_find?_eq_some located)
      (by rw [row.1]; exact pays) closing (by rw [target]; exact closes)
    rw [← row.2.2.2]
    exact verdict

structure Finishing (db later : Db) (job : Job) (process : Process) (step : StepInstance)
    (leaseVersion : Option Int) (outcome : Option String) (transition : TransitionDefinition)
    (next : StepDefinition) : Prop where
  jobMember : job ∈ db.workflow.jobs
  processMember : process ∈ db.workflow.processes
  stepMember : step ∈ db.workflow.steps
  owns : process.id = job.processId
  runs : step.id = job.stepInstanceId
  running : process.state = .running
  live : step ∈ (db.view job.processId).liveSteps
  current : process.currentStepKey = some step.stepKey
  leads : db.config.transition? process.flowName process.flowVersion (some step.stepKey) outcome =
    some transition
  placed : db.config.stepDefinition? process.flowName process.flowVersion transition.toStepKey =
    some next
  moves : EngineMoves process.id db
    ((db.completeJob job leaseVersion outcome).placeStep process.id next)
  rest : EngineMoves process.id
    ((db.completeJob job leaseVersion outcome).placeStep process.id next) later
  added : JobsAdded (db.completeJob job leaseVersion outcome) later

theorem finishJob_finishing (calm : db.Calm) {jobId : Nat} {owner outcome : Option String}
    {leaseVersion : Option Int} {reply : Option ProcessState}
    (returned : finishJob db jobId owner leaseVersion outcome = .ok (later, reply)) :
    ∃ job process step transition next, job.id = jobId ∧
      Finishing db later job process step leaseVersion outcome transition next := by
  have rows := calm.sound.rows
  obtain ⟨job, found, held, added⟩ := finishJob_jobs returned
  obtain ⟨member, jobKey⟩ := Table.lookup_mem found
  simp only [finishJob, found, held, Bool.false_eq_true, if_false] at returned
  split at returned
  swap
  · cases returned
  rename_i step process stepFound processFound
  split at returned
  · cases returned
  obtain ⟨advanced, first, rest⟩ := Runs.bind_eq_ok.mp returned
  cases rest
  obtain ⟨stepMember, stepKey⟩ := Table.lookup_mem stepFound
  obtain ⟨processMember, owns⟩ := Table.lookup_mem processFound
  obtain ⟨other, otherMember, otherOwns, open_, openMember, runs, _, state, current, _, live, _⟩ :=
    calm.sound.running member (leased_live held)
  obtain rfl := Table.key_unique rows.processIds otherMember processMember
    (otherOwns.trans owns.symm)
  obtain rfl := Table.key_unique rows.stepIds openMember stepMember (runs.trans stepKey.symm)
  obtain ⟨transition, next, leads, placed, reaches⟩ := @advance_reaches _
    (db.completeJob job leaseVersion outcome) _ _ (enterStep_enters _) _ _ processFound
    (by rw [state]; simp) first
  have move := EngineMove.finished member held stepMember stepKey processMember owns leads placed
  have rest := reaches (Db.completeJob_rows rows _ _ _) (move.sound calm.sound)
  refine ⟨job, other, open_, transition, next, jobKey, member, processMember, stepMember, owns,
    runs, state, by rw [live]; simp, current, ?_, placed, ?_, ?_, added⟩
  · rw [← current]
    exact leads
  · rw [owns]
    exact .single move
  · rw [owns]
    exact rest.moves

namespace Finishing

variable {job : Job} {process : Process} {step : StepInstance} {leaseVersion : Option Int}
  {outcome : Option String} {transition : TransitionDefinition} {next : StepDefinition}

theorem ending (finishing : Finishing db later job process step leaseVersion outcome transition next)
    (flows : db.config.PaymentFlows) (pays : db.config.pays process.flowName = true) :
    next.stepType = .endStep ↔ (closingAction? step.stepKey).isSome = true := by
  have arc := List.find?_some finishing.leads
  have target := List.find?_some finishing.placed
  simp only [decide_eq_true_eq, Option.some.injEq] at arc target
  rw [← arc.2.2.1]
  exact flows.ends transition (List.mem_of_find?_eq_some finishing.leads)
    (by rw [arc.1]; exact pays) next (List.mem_of_find?_eq_some finishing.placed)
    (target.1.trans arc.1.symm) (target.2.1.trans arc.2.1.symm) target.2.2

theorem middle (finishing : Finishing db later job process step leaseVersion outcome transition next)
    (rows : db.Rows) {earlier : List StepInstance}
    (trail : Trail db.config (db.view process.id) process earlier step) :
    let between := (db.completeJob job leaseVersion outcome).placeStep process.id next
    (between.view process.id).process = some (Db.placedProcess next process) ∧
      (between.view process.id).steps = earlier ++ [step.completedWith outcome] ++
        [(db.completeJob job leaseVersion outcome).placedStep process.id next] := by
  intro between
  have here : (db.view process.id).process = some process :=
    rows.process? finishing.processMember
  rw [Db.view_placeStep _ _ _ (Db.completeJob_rows rows _ _ _).stepBound, if_pos rfl,
    Db.view_completeJob, ← finishing.runs]
  constructor
  · simp only [View.place, View.log, View.updateSteps, View.updateJobs, here, Option.map_some]
  · exact congrArg (· ++ [_]) (@Trail.relast _ _ _ _ _ trail (Db.view_stepIds rows _)
      (StepInstance.completedWith outcome) rfl).1

theorem goes_on (finishing : Finishing db later job process step leaseVersion outcome transition next)
    (sound : db.Sound) (flows : db.config.PaymentFlows)
    (pays : db.config.pays process.flowName = true) {earlier : List StepInstance}
    (trail : Trail db.config (db.view process.id) process earlier step)
    (leaves : closingAction? step.stepKey = none) {after : Process}
    (found : (later.view process.id).process = some after) : after.state ≠ .completed := by
  intro completed
  have rows := Db.completeJob_rows sound.rows job leaseVersion outcome
  have between := EngineMoves.sound finishing.moves sound
  have config := EngineMoves.config_eq finishing.moves
  obtain ⟨kept, keptMember, fixed⟩ := (EngineMoves.kept (finishing.moves.trans finishing.rest)
    sound).process finishing.processMember
  obtain ⟨afterMember, afterKey⟩ := Table.lookup_mem found
  obtain ⟨keptKey, flowName, _⟩ := Process.fixed_columns fixed
  obtain rfl := Table.key_unique (EngineMoves.sound finishing.rest between).rows.processIds keptMember
    afterMember (keptKey.trans afterKey.symm)
  have ends := EngineMoves.ends finishing.rest between (by rw [config]; exact flows)
    (by rw [config, flowName]; exact pays) completed
  rw [← afterKey] at found
  have before := ends.before (fun jobId done => Db.succeeded_placeStep _ _
    (finishing.added.succeeded ⟨rows.jobIds, rows.jobBound⟩ jobId done)) found
  rw [afterKey, (finishing.middle sound.rows trail).1, Option.some.injEq] at before
  rw [← before] at completed
  have closed := (finishing.ending flows pays).mp (Db.placedProcess_completed completed)
  rw [leaves] at closed
  cases closed

theorem closes (finishing : Finishing db later job process step leaseVersion outcome transition next)
    (sound : db.Sound) (flows : db.config.PaymentFlows)
    (pays : db.config.pays process.flowName = true) {earlier : List StepInstance}
    (trail : Trail db.config (db.view process.id) process earlier step)
    {closing : Target × OperationStatus} (closes : closingAction? step.stepKey = some closing)
    {after : Process} (found : (later.view process.id).process = some after) :
    after.state = .completed ∧
      (later.view process.id).branching.bind verdict? = some closing.2 := by
  have config := EngineMoves.config_eq finishing.moves
  have completed : (Db.placedProcess next process).state = .completed := by
    rw [Db.placedProcess, (finishing.ending flows pays).mpr (by rw [closes]; rfl)]
    rfl
  have ends := EngineMoves.ends finishing.rest (EngineMoves.sound finishing.moves sound)
    (by rw [config]; exact flows) (by rw [config]; exact pays) completed
  obtain ⟨here, steps⟩ := finishing.middle sound.rows trail
  obtain ⟨last, same⟩ := ends.stays here
  obtain rfl := Option.some.inj (last.symm.trans found)
  refine ⟨completed, ?_⟩
  obtain ⟨before, final, verdict⟩ := trail.verdict flows pays closes
  rw [View.branching, show (later.view process.id).steps = _ from same.trans steps,
    List.dropLast_concat, List.dropLast_concat, final]
  exact verdict

end Finishing

/-- A job that is finished takes its process along a transition of its step. -/
theorem finishJob_finishes (calm : db.Calm) (trailed : db.Trailed)
    (flows : db.config.PaymentFlows) {jobId : Nat} {owner outcome : Option String}
    {leaseVersion : Option Int} {reply : Option ProcessState}
    (returned : finishJob db jobId owner leaseVersion outcome = .ok (later, reply)) :
    ∃ job ∈ db.workflow.jobs, ∃ process ∈ db.workflow.processes, ∃ step ∈ db.workflow.steps,
      job.id = jobId ∧ process.id = job.processId ∧ step.id = job.stepInstanceId ∧
        process.state = .running ∧ EngineMoves process.id db later ∧
          (db.config.pays process.flowName = true → later.Finishes process.id step.stepKey) := by
  obtain ⟨job, process, step, transition, next, key, finishing⟩ := finishJob_finishing calm returned
  refine ⟨job, finishing.jobMember, process, finishing.processMember, step, finishing.stepMember, key,
    finishing.owns, finishing.runs, finishing.running, finishing.moves.trans finishing.rest, ?_⟩
  intro pays after found
  obtain ⟨earlier, last, trail⟩ :=
    trailed process.id process (calm.sound.rows.process? finishing.processMember)
  obtain rfl := trail.live (by rw [finishing.owns]; exact finishing.live)
  cases closes : closingAction? step.stepKey with
  | none => exact finishing.goes_on calm.sound flows pays trail closes found
  | some closing => exact finishing.closes calm.sound flows pays trail closes found

end Finish

end PaymentWorkflow
