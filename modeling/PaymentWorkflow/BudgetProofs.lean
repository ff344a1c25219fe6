import PaymentWorkflow.AttemptTable
import PaymentWorkflow.EngineKept
import PaymentWorkflow.PublishProofs

/-!
The failure budget of a job: `fail_job` decides by `attempt_count`, which counts the attempts
that ended STALE as well as those that failed.
-/

namespace PaymentWorkflow

/-! The task a job is pinned to. -/

namespace Db

def taskOf (db : Db) (job : Job) : Option TaskDefinition :=
  match db.workflow.step? job.stepInstanceId, db.workflow.process? job.processId with
  | some step, some process => db.config.task? process.flowName process.flowVersion step.stepKey
  | _, _ => none

theorem retryOf_eq {db : Db} {job : Job} {definition : TaskDefinition}
    (pinned : db.taskOf job = some definition) :
    db.retryOf job =
      (definition.task.retry.maxAttempts, definition.task.retry.delayAt job.attemptCount) := by
  simp only [taskOf] at pinned
  split at pinned
  · rename_i step process stepFound processFound
    simp only [retryOf, stepFound, processFound, pinned]
  · simp at pinned

theorem taskOf_eq {db : Db} {job : Job} {step : StepInstance} {process : Process}
    (rows : db.Rows) (stepMember : step ∈ db.workflow.steps) (runs : step.id = job.stepInstanceId)
    (processMember : process ∈ db.workflow.processes) (owns : process.id = job.processId) :
    db.taskOf job = db.config.task? process.flowName process.flowVersion step.stepKey := by
  simp only [taskOf, ← runs, ← owns, rows.step? stepMember, rows.process? processMember]

theorem taskOf_kept {db later : Db} (kept : db.Kept later) (rows : db.Rows) (laterRows : later.Rows)
    (config : later.config = db.config) {job old : Job} (member : old ∈ db.workflow.jobs)
    (same : job.fixed = old.fixed) : later.taskOf job = db.taskOf old := by
  obtain ⟨_, processSame, stepSame⟩ := same_keys same
  obtain ⟨step, stepMember, runs, owns⟩ := rows.jobStep member
  obtain ⟨process, processMember, processOwns, _⟩ := rows.stepDefined stepMember
  obtain ⟨afterStep, afterStepMember, stepKept⟩ := kept.step stepMember
  obtain ⟨afterProcess, afterProcessMember, processKept⟩ := kept.process processMember
  simp only [StepInstance.fixed, StepInstance.mk.injEq] at stepKept
  simp only [Process.fixed, Process.mk.injEq] at processKept
  rw [taskOf_eq rows stepMember runs processMember (processOwns.trans owns),
    taskOf_eq laterRows afterStepMember (stepKept.1.trans (runs.trans stepSame.symm))
      afterProcessMember (processKept.1.trans (processOwns.trans (owns.trans processSame.symm))),
    config, processKept.2.1, processKept.2.2.1, stepKept.2.2.1]

end Db

/-! The retry of every task of an accepted map is valid. -/

def Retry.Valid (retry : Retry) (most : Nat) : Prop :=
  retry.maxAttempts = some (most : Int) ∧ 1 ≤ most ∧ most ≤ 10 ∧ retry.delaysMs.length + 1 = most

theorem Config.Faithful.retry {config : Config} (faithful : config.Faithful)
    {definition : TaskDefinition} (member : definition ∈ config.taskDefinitions) :
    ∃ most, definition.task.retry.Valid most := by
  obtain ⟨version, versionMember, owns⟩ := faithful.tasks.owned definition member
  have listed : definition ∈ version.map.steps.filterMap version.map.defineTask := by
    rw [← faithful.tasks.rows version versionMember]
    exact List.mem_filter.mpr ⟨member, by simp [owns]⟩
  obtain ⟨step, inside, projected⟩ := List.mem_filterMap.mp listed
  obtain ⟨catalog, accepted, _⟩ := faithful.accepted version versionMember
  obtain ⟨stepType, kind⟩ := accepted.kind inside
  simp only [FlowMap.defineTask, kind.ofText?] at projected
  split at projected
  · rename_i automatic
    cases kind with
    | automatic task type has =>
        simp only [has, Option.map_some, Option.some.injEq] at projected
        subst projected
        obtain ⟨_, _, _, _, retry, _⟩ := accepted.task inside type has
        exact validateRetry_ok retry
    | waitSignal | manual | endStep => simp at automatic
  · simp at projected

theorem Db.Sound.task {db : Db} (sound : db.Sound) (faithful : db.config.Faithful) {job : Job}
    (member : job ∈ db.workflow.jobs) (live : job.state.live = true) :
    ∃ definition ∈ db.config.taskDefinitions, db.taskOf job = some definition := by
  obtain ⟨process, processMember, owns, step, stepMember, runs, stepOwns, _, _, automatic, _⟩ :=
    sound.running member live
  obtain ⟨definition, defined, sameType⟩ := sound.rows.definition stepMember processMember
    (owns.trans stepOwns.symm)
  obtain ⟨version, versionMember, flowName, number, mapStep, inside, key, kind, _⟩ :=
    faithful.defined defined
  have found : ∃ task, db.config.task? process.flowName process.flowVersion step.stepKey =
      some task := by
    rw [sameType, automatic] at kind
    cases kind with
    | automatic task type has =>
        have pinned := faithful.task? versionMember inside type has
        rw [flowName, number, key] at pinned
        exact ⟨_, pinned⟩
  obtain ⟨task, found⟩ := found
  exact ⟨task, List.mem_of_find?_eq_some found, by
    rw [Db.taskOf_eq sound.rows stepMember runs processMember owns, found]⟩

/-! A live job has failed less often than its budget allows. -/

def Db.Budgeted (db : Db) : Prop :=
  ∀ job ∈ db.workflow.jobs, job.state.live = true → ∀ definition, db.taskOf job = some definition →
    ∀ most : Nat, definition.task.retry.Valid most → failures db.workflow.attempts job.id < most

inductive Spent (db later : Db) (job : Job) : Prop
  | placed (unspent : failures later.workflow.attempts job.id = 0)
  | kept (old : Job) (member : old ∈ db.workflow.jobs) (same : job.fixed = old.fixed)
      (live : old.state.live = true)
      (spent : failures later.workflow.attempts job.id ≤ failures db.workflow.attempts job.id)
  | retried (old : Job) (member : old ∈ db.workflow.jobs) (same : job.fixed = old.fixed)
      (remains : ((db.retryOf old).1.any fun most => (old.attemptCount : Int) < most) = true)
      (spent : failures later.workflow.attempts job.id ≤ old.attemptCount)

theorem Db.Budgeted.of_spent {db later : Db} (budgeted : db.Budgeted) (kept : db.Kept later)
    (rows : db.Rows) (laterRows : later.Rows) (config : later.config = db.config)
    (spent : ∀ job ∈ later.workflow.jobs, job.state.live = true → Spent db later job) :
    later.Budgeted := by
  intro job member live definition pinned most valid
  cases spent job member live with
  | placed unspent =>
      have positive := valid.2.1
      omega
  | kept old oldMember same oldLive spent =>
      rw [Db.taskOf_kept kept rows laterRows config oldMember same] at pinned
      have before := budgeted old oldMember oldLive definition pinned most valid
      rw [(Db.same_keys same).1] at spent ⊢
      omega
  | retried old oldMember same remains spent =>
      rw [Db.taskOf_kept kept rows laterRows config oldMember same] at pinned
      simp only [Db.retryOf_eq pinned, valid.1, Option.any_some, decide_eq_true_eq] at remains
      omega

namespace Spent

variable {db later : Db} {job : Job}

theorem unchanged (jobs : later.workflow.jobs = db.workflow.jobs)
    (spent : ∀ jobId, failures later.workflow.attempts jobId ≤ failures db.workflow.attempts jobId)
    (member : job ∈ later.workflow.jobs) (live : job.state.live = true) : Spent db later job :=
  .kept job (jobs ▸ member) rfl live (spent _)

theorem updated (jobId : Nat) {change : Job → Job}
    (jobs : later.workflow.jobs = Table.update (fun row => row.id = jobId) change db.workflow.jobs)
    (stable : ∀ row, (change row).fixed = row.fixed)
    (ends : ∀ row ∈ db.workflow.jobs, row.id = jobId → (change row).state.live = true →
      row.state.live = true ∧
        failures later.workflow.attempts jobId ≤ failures db.workflow.attempts jobId)
    (others : ∀ other, other ≠ jobId →
      failures later.workflow.attempts other ≤ failures db.workflow.attempts other)
    (member : job ∈ later.workflow.jobs) (live : job.state.live = true) : Spent db later job := by
  rw [jobs] at member
  obtain ⟨old, oldMember, rfl⟩ := Table.mem_update.mp member
  by_cases hit : old.id = jobId
  · simp only [hit, decide_true, if_true] at live ⊢
    obtain ⟨oldLive, spent⟩ := ends old oldMember hit live
    refine .kept old oldMember (stable old) oldLive ?_
    rw [(Db.same_keys (stable old)).1, hit]
    exact spent
  · simp only [hit, decide_false, Bool.false_eq_true, if_false] at live ⊢
    exact .kept old oldMember rfl live (others old.id hit)

theorem place {between : Db} {processId : Nat} {definition : StepDefinition}
    (rows : between.Rows) (numbered : between.Numbered)
    (spent : ∀ job ∈ between.workflow.jobs, job.state.live = true → Spent db between job)
    (member : job ∈ (between.placeStep processId definition).workflow.jobs)
    (live : job.state.live = true) : Spent db (between.placeStep processId definition) job := by
  rw [Db.placeStep_jobs] at member
  rcases List.mem_append.mp member with old | new
  · cases spent job old live with
    | placed unspent => exact .placed (by rw [Db.placeStep_attempts]; exact unspent)
    | kept before beforeMember same oldLive spent =>
        exact .kept before beforeMember same oldLive (by rw [Db.placeStep_attempts]; exact spent)
    | retried before beforeMember same remains spent =>
        exact .retried before beforeMember same remains (by rw [Db.placeStep_attempts]; exact spent)
  · refine .placed ?_
    rw [Db.placeStep_attempts, failures, numbered.opened_fresh]
    · rfl
    · intro other otherMember same
      have bound := rows.jobBound other otherMember
      simp only [Db.placedJobs] at new
      split at new
      · simp only [List.mem_singleton] at new
        subst new
        simp only at same
        omega
      · simp at new

end Spent

theorem Db.failAttempt_away {db : Db} {jobId other : Nat} (leaseVersion : Option Int)
    (errorCode : Option String) (different : other ≠ jobId) :
    failures (db.failAttempt jobId leaseVersion errorCode).workflow.attempts other ≤
      failures db.workflow.attempts other := by
  refine failures_update_le ?_ ?_
  · exact fun _ => rfl
  intro row _ owner hit _
  simp only [Attempt.runsUnder, decide_eq_true_eq] at hit
  exact absurd (owner.symm.trans hit.1) different

theorem Db.Numbered.failAttempt {db : Db} (numbered : db.Numbered) (jobId : Nat)
    (leaseVersion : Option Int) (errorCode : Option String) :
    (db.failAttempt jobId leaseVersion errorCode).Numbered := by
  refine PaymentWorkflow.Numbered.updateAttempts numbered ?_
  exact fun _ => rfl

theorem EngineMove.spent {processId : Nat} {db later : Db} (move : EngineMove processId db later)
    (sound : db.Sound) (numbered : db.Numbered) :
    ∀ job ∈ later.workflow.jobs, job.state.live = true → Spent db later job := by
  intro job member live
  have rows := sound.rows
  cases move with
  | ticked => exact .unchanged rfl (fun _ => Nat.le_refl _) member live
  | swept =>
      refine .unchanged rfl (fun jobId => ?_) member live
      refine failures_update_le ?_ ?_
      · exact fun _ => rfl
      · intro row _ _ _ failed
        simp at failed
  | applied => exact .unchanged rfl (fun _ => Nat.le_refl _) member live
  | started =>
      refine .place (Db.startRows rows _ _ _ _) (numbered.mono (Nat.le_succ _)) ?_ member live
      exact fun _ => .unchanged rfl fun _ => Nat.le_refl _
  | stored => exact .unchanged rfl (fun _ => Nat.le_refl _) member live
  | signalled =>
      refine .place (Db.consumeSignal_rows rows _ _ _ _) numbered ?_ member live
      exact fun _ => .unchanged rfl fun _ => Nat.le_refl _
  | @leased _ job owner leaseMs jobMember jobLive =>
      have opens : ∀ other, failures (db.leaseJob owner leaseMs job).workflow.attempts other =
          failures db.workflow.attempts other := by
        intro other
        simp [Db.leaseJob, failures, opened, List.countP_append, List.filter_append]
      refine .updated job.id rfl (fun _ => rfl) ?_ (fun other _ => ?_) member live
      · intro row rowMember same _
        obtain rfl := Table.key_unique rows.jobIds rowMember jobMember same
        exact ⟨jobLive, Nat.le_of_eq (opens _)⟩
      · exact Nat.le_of_eq (opens other)
  | @disabled _ job row attemptId rowMember rowLive same opened =>
      refine .updated job.id rfl (fun _ => rfl) ?_ (fun other different => ?_) member live
      · intro row _ _ alive
        simp [JobState.live] at alive
      · refine failures_update_le ?_ ?_
        · exact fun _ => rfl
        intro attempt attemptMember owner hit _
        obtain ⟨leased, leasedMember, id, owns⟩ := opened
        have equal := Table.key_unique numbered.ids attemptMember leasedMember
          ((of_decide_eq_true hit).trans id.symm)
        subst equal
        exact absurd (owner.symm.trans owns) different
  | @finished _ job step process owner outcome leaseVersion transition next jobMember =>
      refine .place (Db.completeJob_rows rows _ _ _)
        (Numbered.change numbered rfl rfl (fun _ => rfl) fun _ => ⟨rfl, rfl, rfl⟩) ?_ member live
      intro other otherMember otherLive
      have less : ∀ jobId, failures (db.completeJob job leaseVersion outcome).workflow.attempts
          jobId ≤ failures db.workflow.attempts jobId := by
        intro jobId
        refine failures_update_le ?_ ?_
        · exact fun _ => rfl
        · intro row _ _ _ failed
          simp at failed
      refine .updated job.id rfl (fun _ => rfl) ?_ (fun other _ => less other) otherMember
        otherLive
      intro row _ _ alive
      simp [JobState.live] at alive
  | @retried _ job owner leaseVersion errorCode nextAttemptAt jobMember held remains =>
      have jobs : ((db.failAttempt job.id leaseVersion errorCode).scheduleRetry job.id
          nextAttemptAt).workflow.jobs = Table.update (fun row => row.id = job.id) (fun row =>
            { row with state := .retryWait, leaseOwner := none, leaseUntil := none, nextAttemptAt })
              db.workflow.jobs := rfl
      rw [jobs] at member
      obtain ⟨old, oldMember, same⟩ := Table.mem_update.mp member
      by_cases hit : old.id = job.id
      · obtain rfl := Table.key_unique rows.jobIds oldMember jobMember hit
        simp only [decide_true, if_true] at same
        subst same
        refine .retried old oldMember rfl remains ?_
        have counted := (numbered.failAttempt old.id leaseVersion errorCode).count old oldMember
        exact Nat.le_trans (failures_le _ _) (Nat.le_of_eq counted)
      · simp only [hit, decide_false, Bool.false_eq_true, if_false] at same
        subst same
        exact .kept old oldMember rfl live (Db.failAttempt_away leaseVersion errorCode hit)
  | @died _ job owner leaseVersion errorCode jobMember held =>
      refine .updated job.id rfl (fun _ => rfl) ?_ (fun other different => ?_) member live
      · intro row _ _ alive
        simp [JobState.live] at alive
      · exact Db.failAttempt_away leaseVersion errorCode different
  | decided =>
      refine .place (Db.decide_rows rows _ _ _ _ _ _) (numbered.mono (Nat.le_succ _)) ?_ member live
      exact fun _ => .unchanged rfl fun _ => Nat.le_refl _

theorem EngineMove.budgeted {processId : Nat} {db later : Db} (move : EngineMove processId db later)
    (sound : db.Sound) (numbered : db.Numbered) (budgeted : db.Budgeted) : later.Budgeted :=
  budgeted.of_spent (move.kept sound.rows) sound.rows (move.rows sound) move.config_eq
    (move.spent sound numbered)

theorem reached_budgeted (config : Config) (clock : Nat → Time) (digest : String → String)
    (calls : List Call) : (reached config clock digest calls).db.Numbered ∧
      (reached config clock digest calls).db.Budgeted := by
  refine reached_invariant (fun db => db.Numbered ∧ db.Budgeted) ?_ ?_ ?_ ?_ calls
  · intro processId before after sound _ held move
    exact ⟨move.numbered sound held.1, move.budgeted sound held.1 held.2⟩
  · intro before after _ _ held move
    refine ⟨?_, ?_⟩
    · rw [Db.Numbered, move.workflow_eq]
      exact held.1.mono move.nextId_le
    · intro job member live definition pinned
      simp only [Db.taskOf, move.workflow_eq, move.config_eq] at member pinned ⊢
      exact held.2 job member live definition pinned
  · intro target operation before after _ _ held move
    cases move
    exact held
  · refine ⟨by constructor <;> simp [Db.initial], ?_⟩
    intro job member
    simp [Db.initial] at member

/-! What a retryable failure does, and when that is what the budget says. -/

def Db.lostAttempts (db : Db) (jobId : Nat) (leaseVersion : Option Int) : Nat :=
  (opened db.workflow.attempts jobId).countP fun row =>
    row.status ≠ .failed ∧ row.runsUnder jobId leaseVersion = false

/-- The failure buries the job exactly when it is the last failed attempt of the budget, and an
earlier failed attempt schedules the retry with the delay of its own number. -/
def Retry.Counts (retry : Retry) (earlier failed : Nat) (now : Time) (after : Job) : Prop :=
  (after.state = .dead ↔ earlier < failed ∧ retry.maxAttempts = some (failed : Int)) ∧
    (earlier < failed ∧ (retry.maxAttempts.any fun most => (failed : Int) < most) = true →
      after.state = .retryWait ∧ after.nextAttemptAt =
        retry.delaysMs[failed - 1]?.map fun delay => now + milliseconds delay)

instance {retry : Retry} {earlier failed : Nat} {now : Time} {after : Job} :
    Decidable (retry.Counts earlier failed now after) :=
  inferInstanceAs (Decidable (_ ∧ _))

def FailureCounted (before later : Db) (jobId : Nat) : Prop :=
  ∃ job ∈ before.workflow.job? jobId, ∃ definition ∈ before.taskOf job,
    ∃ after ∈ later.workflow.job? jobId, definition.task.retry.Counts
      (failures before.workflow.attempts jobId) (failures later.workflow.attempts jobId)
        before.now after

instance {before later : Db} {jobId : Nat} : Decidable (FailureCounted before later jobId) :=
  inferInstanceAs (Decidable (∃ job ∈ _, ∃ definition ∈ _, ∃ after ∈ _, _))

def Retry.Fits (retry : Retry) (running : Bool) (failed lost : Nat) : Prop :=
  if running then
    lost = 0 ∨ retry.maxAttempts = some (failed + 1 : Int) ∨
      (retry.maxAttempts.any fun most => (failed + lost + 1 : Int) < most) = true ∧
        retry.delaysMs[failed + lost]? = retry.delaysMs[failed]?
  else (retry.maxAttempts.any fun most => (failed + lost : Int) < most) = true

instance {retry : Retry} {running : Bool} {failed lost : Nat} :
    Decidable (retry.Fits running failed lost) :=
  inferInstanceAs (Decidable (ite _ _ _))

def Db.BudgetFits (db : Db) (jobId : Nat) (leaseVersion : Option Int) : Prop :=
  ∃ job ∈ db.workflow.job? jobId, ∃ definition ∈ db.taskOf job, definition.task.retry.Fits
    (db.workflow.attempts.any fun row => row.runsUnder jobId leaseVersion)
      (failures db.workflow.attempts jobId) (db.lostAttempts jobId leaseVersion)

instance {db : Db} {jobId : Nat} {leaseVersion : Option Int} :
    Decidable (db.BudgetFits jobId leaseVersion) :=
  inferInstanceAs (Decidable (∃ job ∈ _, ∃ definition ∈ _, _))

theorem any_runsUnder {attempts : List Attempt} {jobId : Nat} {leaseVersion : Option Int} :
    (attempts.any fun row => row.runsUnder jobId leaseVersion) = true ↔
      0 < (opened attempts jobId).countP fun row => row.runsUnder jobId leaseVersion := by
  rw [List.any_eq_true, List.countP_pos_iff]
  constructor
  · rintro ⟨row, member, runs⟩
    have owner := runs
    simp only [Attempt.runsUnder, decide_eq_true_eq] at owner
    exact ⟨row, mem_opened.mpr ⟨member, owner.1⟩, runs⟩
  · rintro ⟨row, member, runs⟩
    exact ⟨row, (mem_opened.mp member).1, runs⟩

/-- What `fail_job` decides by: a job's attempts are its failures, the one that runs and the
lost ones. -/
theorem attempts_split {db : Db} (numbered : db.Numbered) {job : Job}
    (member : job ∈ db.workflow.jobs) (leaseVersion : Option Int) :
    ∃ under, under ≤ 1 ∧ ((db.workflow.attempts.any fun row => row.runsUnder job.id leaseVersion) =
      true ↔ under = 1) ∧ job.attemptCount = failures db.workflow.attempts job.id + under +
        db.lostAttempts job.id leaseVersion ∧ ∀ errorCode, failures
          (db.failAttempt job.id leaseVersion errorCode).workflow.attempts job.id =
            failures db.workflow.attempts job.id + under := by
  have runs : ∀ row : Attempt, row.runsUnder job.id leaseVersion = true →
      row.status = .running := by
    intro row hit
    simp only [Attempt.runsUnder, decide_eq_true_eq] at hit
    exact hit.2.2
  have most := countP_runsUnder_le (numbered.versions job member) job.id leaseVersion
  refine ⟨_, most, ?_, ?_, ?_⟩
  · rw [any_runsUnder]
    omega
  · rw [← numbered.count job member, length_opened runs]
    rfl
  · intro errorCode
    refine failures_update_fail ?_ ?_ runs job.id
    · exact fun _ => rfl
    · exact fun _ => rfl

theorem delays_eq_iff {now : Time} {left right : Option Int} :
    (left.map fun delay => now + milliseconds delay) =
      (right.map fun delay => now + milliseconds delay) ↔ left = right := by
  have injective : Function.Injective fun delay : Int => now + milliseconds delay := by
    intro first second same
    exact Int.eq_of_mul_eq_mul_right (by decide : (1000 : Int) ≠ 0) (Int.add_left_cancel same)
  exact (Option.map_injective injective).eq_iff

section Rows

variable {db : Db} {job : Job}

theorem Db.job?_updateJob (found : db.workflow.job? job.id = some job) {change : Job → Job}
    (stable : ∀ row, (change row).id = row.id) :
    (db.updateJob job.id change).workflow.job? job.id = some (change job) := by
  have looked : Table.lookup Job.id job.id (Table.update (fun row => row.id = job.id) change
      db.workflow.jobs) = some (change job) := by
    rw [Table.lookup_update _ _ _ _ stable, show Table.lookup Job.id job.id db.workflow.jobs =
      some job from found]
    simp
  exact looked

theorem Db.job?_scheduleRetry (found : db.workflow.job? job.id = some job)
    (nextAttemptAt : Option Time) :
    (db.scheduleRetry job.id nextAttemptAt).workflow.job? job.id = some { job with
      state := .retryWait, leaseOwner := none, leaseUntil := none, nextAttemptAt } := by
  refine Db.job?_updateJob found ?_
  exact fun _ => rfl

theorem Db.job?_buryJob (found : db.workflow.job? job.id = some job) :
    (db.buryJob job).workflow.job? job.id = some { job with
      state := .dead, leaseOwner := none, leaseUntil := none } := by
  refine Db.job?_updateJob found ?_
  exact fun _ => rfl

end Rows

theorem failJob_counted {db later : Db} (sound : db.Sound) (faithful : db.config.Faithful)
    (numbered : db.Numbered) (budgeted : db.Budgeted) {jobId : Nat}
    {owner errorCode : Option String} {leaseVersion : Option Int} {reply : FailReply}
    (returned : failJob db jobId owner leaseVersion errorCode true = .ok (later, reply)) :
    FailureCounted db later jobId ↔ db.BudgetFits jobId leaseVersion := by
  simp only [failJob] at returned
  split at returned
  · simp at returned
  rename_i job found
  obtain ⟨member, rfl⟩ := Table.lookup_mem found
  split at returned
  · simp at returned
  rename_i held
  simp only [Bool.not_eq_true] at held
  have live : job.state.live = true := by rw [(held_leased held).1]; rfl
  obtain ⟨definition, definitionMember, pinned⟩ := sound.task faithful member live
  obtain ⟨most, valid⟩ := faithful.retry definitionMember
  have below := budgeted job member live definition pinned most valid
  obtain ⟨maximum, _, _, delays⟩ := valid
  obtain ⟨under, one, running, count, failed⟩ := attempts_split numbered member leaseVersion
  have fits : db.BudgetFits job.id leaseVersion ↔
      (if under = 1 then
        db.lostAttempts job.id leaseVersion = 0 ∨
          most = failures db.workflow.attempts job.id + 1 ∨
          job.attemptCount < most ∧
            definition.task.retry.delaysMs[failures db.workflow.attempts job.id +
              db.lostAttempts job.id leaseVersion]? =
            definition.task.retry.delaysMs[failures db.workflow.attempts job.id]?
      else job.attemptCount < most) := by
    simp only [Db.BudgetFits, Retry.Fits, found, pinned, maximum, running, Option.mem_def,
      Option.some.injEq, exists_eq_left', Option.any_some, decide_eq_true_eq]
    by_cases runs : under = 1
    · simp only [runs, if_true]
      have last : (most : Int) = failures db.workflow.attempts job.id + 1 ↔
          most = failures db.workflow.attempts job.id + 1 := by omega
      have remains : (failures db.workflow.attempts job.id : Int) +
          db.lostAttempts job.id leaseVersion + 1 < most ↔ job.attemptCount < most := by omega
      rw [last, remains]
    · simp only [runs, if_false]
      omega
  rw [fits]
  simp only [Db.retryOf_eq pinned, maximum, Option.any_some, decide_eq_true_eq, true_and]
    at returned
  split at returned
  · rename_i remains
    cases returned
    have after := Db.job?_scheduleRetry (show (db.failAttempt job.id leaseVersion
      errorCode).workflow.job? job.id = some job from found)
      ((definition.task.retry.delayAt job.attemptCount).map fun count => db.now + milliseconds count)
    have spent : failures ((db.failAttempt job.id leaseVersion errorCode).scheduleRetry job.id
        ((definition.task.retry.delayAt job.attemptCount).map fun count =>
          db.now + milliseconds count)).workflow.attempts job.id = _ := failed errorCode
    simp only [FailureCounted, Retry.Counts, found, after, pinned, maximum, spent, Option.mem_def,
      Option.some.injEq, exists_eq_left', Option.any_some, decide_eq_true_eq, reduceCtorEq,
      false_iff, true_and, delays_eq_iff]
    by_cases runs : under = 1
    · have slot : definition.task.retry.delayAt job.attemptCount =
          definition.task.retry.delaysMs[failures db.workflow.attempts job.id +
            db.lostAttempts job.id leaseVersion]? := by
        rw [Retry.delayAt, if_neg (by omega)]
        congr 1
        omega
      rw [slot, if_pos runs, runs, Nat.add_sub_cancel]
      constructor
      · rintro ⟨notLast, delay⟩
        exact .inr (.inr ⟨by omega, delay ⟨by omega, by omega⟩⟩)
      · rintro (none | last | ⟨_, same⟩)
        · refine ⟨by omega, fun _ => by rw [none, Nat.add_zero]⟩
        · omega
        · exact ⟨by omega, fun _ => same⟩
    · rw [if_neg runs]
      constructor
      · intro _
        omega
      · intro _
        exact ⟨by omega, by omega⟩
  · rename_i exhausted
    cases returned
    have after := Db.job?_buryJob (show (db.failAttempt job.id leaseVersion
      errorCode).workflow.job? job.id = some job from found)
    have spent : failures ((db.failAttempt job.id leaseVersion errorCode).buryJob
      job).workflow.attempts job.id = _ := failed errorCode
    simp only [FailureCounted, Retry.Counts, found, after, pinned, maximum, spent, Option.mem_def,
      Option.some.injEq, exists_eq_left', Option.any_some, decide_eq_true_eq, reduceCtorEq,
      true_iff, false_and]
    by_cases runs : under = 1
    · rw [if_pos runs]
      constructor
      · rintro ⟨⟨_, last⟩, _⟩
        exact .inr (.inl (by omega))
      · rintro (none | last | ⟨remains, _⟩)
        · exact ⟨⟨by omega, by omega⟩, by omega⟩
        · exact ⟨⟨by omega, by omega⟩, by omega⟩
        · omega
    · rw [if_neg runs]
      constructor
      · rintro ⟨⟨counts, _⟩, _⟩
        omega
      · intro remains
        omega

def Call.CountsFailure (system : System) : Call → Prop
  | .failJob jobId owner leaseVersion errorCode true =>
      ∀ accepted ∈ (PaymentWorkflow.failJob system.db jobId owner leaseVersion errorCode
        true).toOption, FailureCounted system.db accepted.1 jobId
  | _ => True

def Call.FitsBudget (system : System) : Call → Prop
  | .failJob jobId owner leaseVersion _ true =>
      ∀ job ∈ system.db.workflow.job? jobId, job.leaseIsStale owner leaseVersion = false →
        system.db.BudgetFits jobId leaseVersion
  | _ => True

instance {system : System} : (call : Call) → Decidable (call.CountsFailure system)
  | .failJob jobId owner leaseVersion errorCode true =>
      inferInstanceAs (Decidable (∀ accepted ∈ (failJob system.db jobId owner leaseVersion errorCode
        true).toOption, FailureCounted system.db accepted.1 jobId))
  | .failJob _ _ _ _ false => isTrue trivial
  | .startProcess .. | .acceptSignal .. | .reconcileInbox .. | .claimJobs .. | .finishJob ..
  | .work .. | .invoke .. | .claimOutbox .. | .succeedOutbox .. | .failOutbox .. => isTrue trivial

instance {system : System} : (call : Call) → Decidable (call.FitsBudget system)
  | .failJob jobId owner leaseVersion _ true =>
      inferInstanceAs (Decidable (∀ job ∈ system.db.workflow.job? jobId,
        job.leaseIsStale owner leaseVersion = false → system.db.BudgetFits jobId leaseVersion))
  | .failJob _ _ _ _ false => isTrue trivial
  | .startProcess .. | .acceptSignal .. | .reconcileInbox .. | .claimJobs .. | .finishJob ..
  | .work .. | .invoke .. | .claimOutbox .. | .succeedOutbox .. | .failOutbox .. => isTrue trivial

theorem failJob_accepted {db : Db} {jobId : Nat} {owner errorCode : Option String}
    {leaseVersion : Option Int} {retryable : Bool} :
    (∃ later reply, failJob db jobId owner leaseVersion errorCode retryable = .ok (later, reply)) ↔
      ∃ job ∈ db.workflow.job? jobId, job.leaseIsStale owner leaseVersion = false := by
  simp only [failJob, Option.mem_def]
  cases found : db.workflow.job? jobId with
  | none => simp
  | some job =>
      by_cases stale : job.leaseIsStale owner leaseVersion = true
      · simp [stale]
      · simp only [Bool.not_eq_true] at stale
        simp only [stale, Bool.false_eq_true, if_false, Option.some.injEq, exists_eq_left',
          iff_true]
        split
        · exact ⟨_, _, rfl⟩
        · exact ⟨_, _, rfl⟩

/-- At every point of every run over accepted maps the budget is charged as it should be
exactly when the attempts of the job fit it, so a run charges every budget right exactly when
they fit at every failure. -/
theorem failure_budget {config : Config} (published : Published config) (clock : Nat → Time)
    (digest : String → String) (calls : List Call) :
    (∀ call : Call, call.CountsFailure (reached config clock digest calls) ↔
      call.FitsBudget (reached config clock digest calls)) ∧
    (Runs.Guarded step (fun system call => call.CountsFailure system) (fresh config clock digest)
        calls ↔
      Runs.Guarded step (fun system call => call.FitsBudget system) (fresh config clock digest)
        calls) := by
  have once : ∀ (earlier : List Call) (call : Call),
      call.CountsFailure (reached config clock digest earlier) ↔
        call.FitsBudget (reached config clock digest earlier) := by
    intro earlier call
    have sound := (@reached_steady config clock digest earlier).calm.sound
    obtain ⟨numbered, budgeted⟩ := reached_budgeted config clock digest earlier
    have faithful : (reached config clock digest earlier).db.config.Faithful := by
      rw [reached_config]
      exact published.faithful
    cases call with
    | failJob jobId owner leaseVersion errorCode retryable =>
        cases retryable with
        | false => exact Iff.rfl
        | true =>
            constructor
            · intro counts job found held
              obtain ⟨later, reply, returned⟩ := failJob_accepted.mpr ⟨job, found, held⟩
              have counted := counts (later, reply) (by rw [returned]; rfl)
              exact (failJob_counted sound faithful numbered budgeted returned).mp counted
            · intro fits accepted member
              obtain ⟨later, reply⟩ := accepted
              have returned : failJob (reached config clock digest earlier).db jobId owner
                  leaseVersion errorCode true = .ok (later, reply) := by
                cases result : failJob (reached config clock digest earlier).db jobId owner
                    leaseVersion errorCode true with
                | error failure => simp [result, Except.toOption] at member
                | ok value =>
                    simp only [result, Except.toOption, Option.mem_def, Option.some.injEq] at member
                    rw [member]
              obtain ⟨job, found, held⟩ := failJob_accepted.mp ⟨later, reply, returned⟩
              exact (failJob_counted sound faithful numbered budgeted returned).mpr
                (fits job found held)
    | _ => exact Iff.rfl
  refine ⟨once calls, ?_⟩
  refine Runs.guarded_iff (fun system => ∃ earlier, system = reached config clock digest earlier)
    ?_ ?_ calls _ ⟨[], rfl⟩
  · rintro _ call ⟨earlier, rfl⟩
    exact ⟨earlier ++ [call], (reached_append earlier [call]).symm⟩
  · rintro _ call ⟨earlier, rfl⟩
    exact once earlier call

namespace Seed

def smoke : Call := .startProcess "workflow-smoke" "smoke" (.object [])

def lease : Call := .claimJobs "worker" (some 1) (some 100) fun _ => false

def failure (leaseVersion : Int) : Call :=
  .failJob 2 (some "worker") (some leaseVersion) (some "timeout") true

def seconds (tick : Nat) : Time := tick * 1000000

end Seed

theorem failure_budget_spent : Runs.Guarded step (fun system call => call.CountsFailure system)
    (fresh Seed.config Seed.seconds id) [Seed.smoke, Seed.lease, Seed.failure 1, Seed.lease,
      Seed.failure 2, Seed.lease, Seed.failure 3] :=
  (failure_budget Seed.published Seed.seconds id _).2.mpr (by decide +kernel)

/-- Two lapsed leases and one failure use up a budget of three failures. -/
theorem lapsed_leases_spend_budget :
    ¬ Runs.Guarded step (fun system call => call.CountsFailure system)
      (fresh Seed.config Seed.seconds id)
        [Seed.smoke, Seed.lease, Seed.lease, Seed.lease, Seed.failure 3] := by
  decide +kernel

end PaymentWorkflow
