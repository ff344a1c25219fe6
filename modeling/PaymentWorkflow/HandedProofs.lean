import PaymentWorkflow.SystemRuns
import PaymentWorkflow.EngineKept

/-! A record a claim has handed out keeps telling the truth about the job it was made for. -/

namespace PaymentWorkflow

structure Handed (db : Db) (claimed : ClaimedJob) (job : Job) (step : StepInstance)
    (process : Process) : Prop where
  jobMember : job ∈ db.workflow.jobs
  stepMember : step ∈ db.workflow.steps
  processMember : process ∈ db.workflow.processes
  jobId : job.id = claimed.jobId
  executionId : job.executionId = claimed.executionId
  runs : step.id = job.stepInstanceId
  owns : process.id = job.processId
  data : process.data = claimed.processData
  task : ∃ definition, db.config.task? process.flowName process.flowVersion step.stepKey =
    some definition ∧ definition.task = claimed.task
  action : ∃ action, db.config.action? claimed.task.module claimed.task.action
    claimed.task.actionVersion = some action ∧ action.outcomes = claimed.outcomes

def Db.HasHanded (db : Db) (claimed : ClaimedJob) : Prop :=
  ∃ job step process, Handed db claimed job step process

theorem Db.HasHanded.kept {db later : Db} {claimed : ClaimedJob} (handed : db.HasHanded claimed)
    (kept : db.Kept later) (config : later.config = db.config) : later.HasHanded claimed := by
  obtain ⟨job, step, process, handed⟩ := handed
  obtain ⟨afterJob, jobMember, jobSame⟩ := kept.job handed.jobMember
  obtain ⟨afterStep, stepMember, stepSame⟩ := kept.step handed.stepMember
  obtain ⟨afterProcess, processMember, processSame⟩ := kept.process handed.processMember
  simp only [Job.fixed, Job.mk.injEq] at jobSame
  simp only [StepInstance.fixed, StepInstance.mk.injEq] at stepSame
  simp only [Process.fixed, Process.mk.injEq] at processSame
  obtain ⟨jobId, jobProcess, jobStep, jobExecution, _⟩ := jobSame
  obtain ⟨stepId, _, stepKey, _⟩ := stepSame
  obtain ⟨processId, flowName, flowVersion, _, _, _, data⟩ := processSame
  refine ⟨afterJob, afterStep, afterProcess, jobMember, stepMember, processMember,
    jobId.trans handed.jobId, jobExecution.trans handed.executionId,
    stepId.trans (handed.runs.trans jobStep.symm),
    processId.trans (handed.owns.trans jobProcess.symm), data.trans handed.data, ?_, ?_⟩
  · rw [config, flowName, flowVersion, stepKey]
    exact handed.task
  · rw [config]
    exact handed.action

theorem claimOne_handed {db later : Db} {owner : String} {leaseMs : Option Int}
    {job : Job} {claimed handed : List ClaimedJob} (member : job ∈ db.workflow.jobs)
    (returned : claimOne owner leaseMs (db, claimed) job = .ok (later, handed)) :
    ∀ record ∈ handed, record ∈ claimed ∨ later.HasHanded record := by
  obtain ⟨leased, lease, rest⟩ := Runs.bind_eq_ok.mp returned
  simp only at rest
  split at rest
  · rename_i process step processFound stepFound
    split at rest
    · cases rest
      exact fun record inside => .inl inside
    rename_i definition task
    split at rest
    · rename_i action catalogued
      split at rest
      · cases rest
        intro record inside
        rcases List.mem_append.mp inside with old | new
        · exact .inl old
        simp only [List.mem_singleton] at new
        subst new
        right
        have leasedEq : later = db.leaseJob owner leaseMs job := by
          simp only [leaseJob] at lease
          split at lease
          · exact (Except.ok.inj lease).symm
          · simp at lease
        subst leasedEq
        obtain ⟨processMember, owns⟩ := Table.lookup_mem processFound
        obtain ⟨stepMember, runs⟩ := Table.lookup_mem stepFound
        refine ⟨_, step, process, Table.mem_update.mpr ⟨job, member, rfl⟩, stepMember,
          processMember, ?_, ?_, ?_, ?_, rfl, ⟨definition, task, rfl⟩, ⟨action, catalogued, rfl⟩⟩
        · simp
        · simp
        · simpa using runs
        · simpa using owns
      · cases rest
        exact fun record inside => .inl inside
    · cases rest
      exact fun record inside => .inl inside
  · cases rest
    exact fun record inside => .inl inside

theorem claimAll_handed {owner : String} {leaseMs : Option Int} : ∀ (jobs : List Job) (db later : Db)
    (claimed handed : List ClaimedJob), db.Calm → (jobs.map Job.id).Nodup →
      (∀ job ∈ jobs, job ∈ db.workflow.jobs ∧ job.state.live = true) →
        (∀ record ∈ claimed, db.HasHanded record) →
          jobs.foldlM (claimOne owner leaseMs) (db, claimed) = .ok (later, handed) →
            ∀ record ∈ handed, later.HasHanded record := by
  intro jobs
  induction jobs with
  | nil =>
      intro db later claimed handed _ _ _ earlier returned
      cases returned
      exact earlier
  | cons job rest ih =>
      intro db later claimed handed calm unique members earlier returned
      simp only [List.foldlM_cons] at returned
      obtain ⟨⟨next, between⟩, first, continued⟩ := Runs.bind_eq_ok.mp returned
      obtain ⟨member, live⟩ := members job (by simp)
      obtain ⟨reaches, kept⟩ := claimOne_reaches calm member live first
      have here := claimOne_handed member first
      simp only [List.map_cons, List.nodup_cons] at unique
      refine ih next later between handed (reaches.calm calm) unique.2 ?_ ?_ continued
      · intro other otherMember
        obtain ⟨inside, otherLive⟩ := members other (by simp [otherMember])
        refine ⟨kept other inside ?_, otherLive⟩
        intro same
        exact unique.1 (List.mem_map.mpr ⟨other, otherMember, same⟩)
      · intro record inside
        rcases here record inside with old | new
        · exact (earlier record old).kept (reaches.moves.kept calm.sound) reaches.moves.config_eq
        · exact new

theorem claimJobs_handed {db later : Db} (calm : db.Calm) {owner : String} {batch leaseMs : Option Int}
    {locked : Nat → Bool} {claimed : List ClaimedJob}
    (returned : claimJobs db owner batch leaseMs locked = .ok (later, claimed)) :
    ∀ record ∈ claimed, later.HasHanded record := by
  simp only [claimJobs] at returned
  split at returned
  · simp at returned
  split at returned
  · simp at returned
  split at returned
  · simp at returned
  obtain ⟨unique, members⟩ := pickJobs_spec db.sweepExpired batch locked calm.sound.rows.jobIds
  have swept : Db.Reaches 0 db { db.sweepExpired with
      ticks := db.sweepExpired.ticks + db.sweepExpired.nextId } :=
    ⟨(Relation.ReflTransGen.single (.swept 0)).tail (.ticked 0 _), calm.quiet 0⟩
  exact claimAll_handed _ _ _ _ _ (swept.calm calm) unique members (by simp) returned

theorem step_handed {system : System} (steady : system.db.Steady) (call : Call)
    (handed : ∀ record ∈ system.handed, system.db.HasHanded record) :
    ∀ record ∈ (step system call).handed, (step system call).db.HasHanded record := by
  have moves := step_moves steady call
  have stays : ∀ record ∈ system.handed, (step system call).db.HasHanded record :=
    fun record member => (handed record member).kept (moves.kept steady) moves.config_eq
  intro record member
  simp only [step] at member stays ⊢
  split at member
  · rename_i enabled
    simp only [enabled, if_true] at stays ⊢
    rcases List.mem_append.mp member with old | new
    · exact stays record old
    · cases call with
      | claimJobs owner batch leaseMs locked =>
          simp only [handedOut] at new
          split at new
          · rename_i later claimed returned
            simp only [execDb, returned]
            exact claimJobs_handed steady.calm returned record new
          · simp at new
      | _ => simp [handedOut] at new
  · rename_i disabled
    simp only [disabled] at stays ⊢
    exact stays record member

theorem reached_handed (config : Config) (clock : Nat → Time) (digest : String → String)
    (calls : List Call) : ∀ record ∈ (reached config clock digest calls).handed,
      (reached config clock digest calls).db.HasHanded record := by
  have all := @Runs.run_invariant System Call step
    (fun system => system.db.Steady ∧ ∀ record ∈ system.handed, system.db.HasHanded record)
    (fun system call held => ⟨(step_moves held.1 call).steady held.1,
      step_handed held.1 call held.2⟩) calls (fresh config clock digest)
    ⟨initial_steady, by simp [fresh]⟩
  exact all.2

end PaymentWorkflow
