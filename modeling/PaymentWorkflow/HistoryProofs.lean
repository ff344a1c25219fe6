import PaymentWorkflow.HistoryTable
import PaymentWorkflow.WorldProofs
import PaymentWorkflow.BudgetProofs

/-!
The attempts of a job agree with its row as long as no lease is finished or failed after its
attempt was marked STALE, and none is reclaimed before it was.
-/

namespace PaymentWorkflow

def Db.Concluded (db : Db) (job : Job) : Prop :=
  job.state = .succeeded → ∃ step ∈ db.workflow.steps, step.id = job.stepInstanceId ∧
    step.state = .completed ∧ ∃ row, (opened db.workflow.attempts job.id).filter
      (fun row => row.status = .succeeded) = [row] ∧ row.outcome = step.outcome

structure Db.Recorded (db : Db) (job : Job) : Prop where
  history : JobHistory (opened db.workflow.attempts job.id) job
  concluded : db.Concluded job

def Db.History (db : Db) : Prop := ∀ job ∈ db.workflow.jobs, db.Recorded job

theorem Db.Recorded.of_same {db later : Db} {job : Job} (recorded : db.Recorded job)
    (same : opened later.workflow.attempts job.id = opened db.workflow.attempts job.id)
    (closed : db.StepsClosed later) : later.Recorded job where
  history := by
    rw [same]
    exact recorded.history
  concluded := by
    intro state
    obtain ⟨step, member, runs, completed, row, only, outcome⟩ := recorded.concluded state
    exact ⟨step, closed step member completed, runs, completed, row, same ▸ only, outcome⟩

theorem Db.History.of_workflow {db later : Db} (history : db.History)
    (same : later.workflow = db.workflow) : later.History :=
  fun job member => (history job (same ▸ member)).of_same (by rw [same]) (.of_eq (by rw [same]))

/-- What happens to the attempts of one job does not show in the others. -/
theorem Db.History.of_job {db later : Db} (history : db.History) (jobId : Nat)
    (jobs : ∀ job ∈ later.workflow.jobs, job.id ≠ jobId → job ∈ db.workflow.jobs)
    (attempts : ∀ other ≠ jobId, opened later.workflow.attempts other =
      opened db.workflow.attempts other)
    (closed : db.StepsClosed later)
    (own : ∀ job ∈ later.workflow.jobs, job.id = jobId → later.Recorded job) : later.History := by
  intro job member
  by_cases same : job.id = jobId
  · exact own job member same
  · exact (history job (jobs job member same)).of_same (attempts job.id same) closed

theorem JobsAdded.history {db later : Db} (added : JobsAdded db later) (numbered : db.Numbered)
    (bound : ∀ job ∈ db.workflow.jobs, job.id < db.nextId) (closed : db.StepsClosed later)
    (history : db.History) : later.History := by
  obtain ⟨more, jobs, _, facts⟩ := added.jobs
  intro job member
  have same : opened later.workflow.attempts job.id = opened db.workflow.attempts job.id := by
    rw [added.attempts]
  by_cases known : job ∈ db.workflow.jobs
  · exact (history job known).of_same same closed
  · have new : job ∈ more := by
      rw [jobs] at member
      exact (List.mem_append.mp member).resolve_left known
    obtain ⟨ready, lower, _⟩ := facts job new
    obtain ⟨count, version⟩ := (added.unclaimed job member).resolve_left known
    have none : opened db.workflow.attempts job.id = [] := by
      refine numbered.opened_fresh fun old oldMember equal => ?_
      have upper := bound old oldMember
      omega
    refine ⟨?_, fun state => ?_⟩
    · rw [same, none]
      exact .unclaimed count version ready
    · rw [ready] at state
      simp at state

/-! The updates of the attempts of one job. -/

section Attempts

variable {attempts : List Attempt} {matched : Attempt → Bool} {change : Attempt → Attempt}

theorem opened_update_away (stable : ∀ row, (change row).fixed = row.fixed) {jobId other : Nat}
    (hits : ∀ row, matched row = true → row ∈ attempts → row.jobId = jobId)
    (different : other ≠ jobId) :
    opened (Table.update matched change attempts) other = opened attempts other := by
  rw [opened_update stable]
  apply Table.update_eq_self
  intro row member
  obtain ⟨inside, owner⟩ := mem_opened.mp member
  by_contra hit
  simp only [Bool.not_eq_false] at hit
  exact different (owner.symm.trans (hits row hit inside))

/-- The only attempt to succeed is the one that was running. -/
theorem succeeded_update {rows : List Attempt} {row : Attempt}
    (none : ∀ other ∈ rows, other.status ≠ .succeeded)
    (sets : ∀ other, (change other).status = .succeeded) (only : rows.filter matched = [row]) :
    (Table.update matched change rows).filter (fun other => other.status = .succeeded) =
      [change row] := by
  have chosen : (Table.update matched change rows).filter (fun other => other.status = .succeeded) =
      (rows.filter matched).map change := by
    clear only
    induction rows with
    | nil => rfl
    | cons first rest ih =>
        have later := ih fun other member => none other (by simp [member])
        have here := none first (by simp)
        by_cases hit : matched first = true
        · simp [hit, sets, later]
        · simp [hit, here, later]
  rw [chosen, only]
  rfl

end Attempts

theorem JobHistory.runsUnder_only {attempts : List Attempt} {job : Job} {leaseVersion : Option Int}
    (history : JobHistory (opened attempts job.id) job)
    (runs : (attempts.any fun row => row.runsUnder job.id leaseVersion) = true) :
    ∃ row ∈ opened attempts job.id, row.status = .running ∧
      (opened attempts job.id).filter (fun other => other.runsUnder job.id leaseVersion) = [row] ∧
        ∀ other ∈ opened attempts job.id, other.status = .running →
          other.runsUnder job.id leaseVersion = true := by
  have most := countP_runsUnder_le history.unique job.id leaseVersion
  obtain ⟨row, member, hit⟩ := List.any_eq_true.mp runs
  simp only [Attempt.runsUnder, decide_eq_true_eq] at hit
  have inside : row ∈ opened attempts job.id := mem_opened.mpr ⟨member, hit.1⟩
  have under : row.runsUnder job.id leaseVersion = true := by simp [Attempt.runsUnder, hit]
  rw [List.countP_eq_length_filter] at most
  have filtered : row ∈ (opened attempts job.id).filter fun other =>
      other.runsUnder job.id leaseVersion := List.mem_filter.mpr ⟨inside, under⟩
  refine ⟨row, inside, hit.2.2, ?_, ?_⟩
  · cases shape : (opened attempts job.id).filter fun other =>
        other.runsUnder job.id leaseVersion with
    | nil => simp [shape] at filtered
    | cons first rest =>
        rw [shape, List.length_cons] at most
        have empty : rest = [] := List.length_eq_zero_iff.mp (by omega)
        rw [shape, empty, List.mem_singleton] at filtered
        rw [empty, filtered]
  · intro other otherMember running
    have version := (history.running other otherMember running).2
    have owner := (mem_opened.mp otherMember).2
    simp only [Attempt.runsUnder, decide_eq_true_eq]
    refine ⟨owner, ?_, running⟩
    rw [hit.2.1, version, (history.running row inside hit.2.2).2]

/-! The calls that change attempts. -/

section Changes

variable {db later : Db} {job : Job} {owner : Option String} {leaseVersion : Option Int}

theorem job_update_cases (rows : db.Rows) (member : job ∈ db.workflow.jobs) {change : Job → Job}
    (stable : ∀ row, (change row).id = row.id) {row : Job}
    (inside : row ∈ Table.update (fun other => other.id = job.id) change db.workflow.jobs) :
    (row.id = job.id → row = change job) ∧ (row.id ≠ job.id → row ∈ db.workflow.jobs) := by
  obtain ⟨old, oldMember, rfl⟩ := Table.mem_update.mp inside
  by_cases same : old.id = job.id
  · obtain rfl := Table.key_unique rows.jobIds oldMember member same
    simp [stable]
  · simp [same, oldMember]

theorem completeJob_history (sound : db.Sound) (history : db.History)
    (member : job ∈ db.workflow.jobs) (held : job.leaseIsStale owner leaseVersion = false)
    (runs : (db.workflow.attempts.any fun row => row.runsUnder job.id leaseVersion) = true)
    (outcome : Option String) : (db.completeJob job leaseVersion outcome).History := by
  have recorded := history job member
  obtain ⟨row, inside, running, only, every⟩ := recorded.history.runsUnder_only runs
  obtain ⟨_, _, _, step, stepMember, stepKey, _⟩ :=
    sound.running member (by rw [(held_leased held).1]; rfl)
  have live : job.state.live = true := by rw [(held_leased held).1]; rfl
  have unsettled : ∀ other ∈ opened db.workflow.attempts job.id, other.status ≠ .succeeded := by
    intro other otherMember done
    have state := recorded.history.succeeded other otherMember done
    rw [(held_leased held).1] at state
    simp at state
  have attempts : ∀ other, opened (db.completeJob job leaseVersion outcome).workflow.attempts other =
      Table.update (fun row => row.runsUnder job.id leaseVersion)
        (fun row => { row with status := .succeeded, outcome })
        (opened db.workflow.attempts other) := by
    intro other
    refine opened_update ?_ other
    exact fun _ => rfl
  refine history.of_job job.id ?_ ?_ ?_ ?_
  · intro other otherMember different
    refine (job_update_cases sound.rows member ?_ otherMember).2 different
    exact fun _ => rfl
  · intro other different
    refine opened_update_away ?_ ?_ different
    · exact fun _ => rfl
    · intro row hit _
      simp only [Attempt.runsUnder, decide_eq_true_eq] at hit
      exact hit.1
  · exact .updateJob sound member live rfl
  · intro after afterMember same
    have shape : after = { job with state := .succeeded, leaseUntil := none } := by
      refine (job_update_cases sound.rows member ?_ afterMember).1 same
      exact fun _ => rfl
    subst shape
    refine ⟨?_, fun _ => ?_⟩
    · rw [attempts]
      refine recorded.history.settle (fun _ => rfl) (fun _ => rfl) (by simp) ?_ rfl rfl ?_
        (fun _ => rfl) (by simp)
      · intro other _ hit
        simp only [Attempt.runsUnder, decide_eq_true_eq] at hit
        exact hit.2.2
      · intro other otherMember otherRuns missed
        rw [every other otherMember otherRuns] at missed
        simp at missed
    · refine ⟨{ step with state := .completed, outcome }, ?_, stepKey, rfl,
        { row with status := .succeeded, outcome }, ?_, rfl⟩
      · exact Table.mem_update.mpr ⟨step, stepMember, by simp [stepKey]⟩
      · rw [attempts]
        exact succeeded_update unsettled (fun _ => rfl) only

theorem failed_history (sound : db.Sound) (history : db.History)
    (member : job ∈ db.workflow.jobs) (held : job.leaseIsStale owner leaseVersion = false)
    (runs : (db.workflow.attempts.any fun row => row.runsUnder job.id leaseVersion) = true)
    (errorCode : Option String) (closed : db.StepsClosed later)
    (attemptsEq : later.workflow.attempts =
      (db.failAttempt job.id leaseVersion errorCode).workflow.attempts)
    {change : Job → Job}
    (jobsEq : later.workflow.jobs =
      Table.update (fun other => other.id = job.id) change db.workflow.jobs)
    (keys : ∀ row, (change row).id = row.id ∧ (change row).attemptCount = row.attemptCount ∧
      (change row).leaseVersion = row.leaseVersion)
    (state : (change job).state ≠ .succeeded) : later.History := by
  have recorded := history job member
  obtain ⟨row, inside, running, only, every⟩ := recorded.history.runsUnder_only runs
  have attempts : ∀ other, opened later.workflow.attempts other =
      Table.update (fun row => row.runsUnder job.id leaseVersion)
        (fun row => { row with status := .failed, errorCode })
        (opened db.workflow.attempts other) := by
    intro other
    rw [attemptsEq]
    refine opened_update ?_ other
    exact fun _ => rfl
  refine history.of_job job.id ?_ ?_ closed ?_
  · intro other otherMember different
    rw [jobsEq] at otherMember
    exact (job_update_cases sound.rows member (fun row => (keys row).1) otherMember).2 different
  · intro other different
    rw [attemptsEq]
    refine opened_update_away ?_ ?_ different
    · exact fun _ => rfl
    · intro row hit _
      simp only [Attempt.runsUnder, decide_eq_true_eq] at hit
      exact hit.1
  · intro after afterMember same
    rw [jobsEq] at afterMember
    have shape := (job_update_cases sound.rows member (fun row => (keys row).1) afterMember).1 same
    subst shape
    refine ⟨?_, fun done => absurd done state⟩
    rw [(keys job).1, attempts]
    refine recorded.history.settle (fun _ => rfl) (fun _ => rfl) (by simp) ?_ (keys job).2.1
      (keys job).2.2 ?_ ?_ ?_
    · intro other _ hit
      simp only [Attempt.runsUnder, decide_eq_true_eq] at hit
      exact hit.2.2
    · intro other otherMember otherRuns missed
      rw [every other otherMember otherRuns] at missed
      simp at missed
    · intro done
      rw [(held_leased held).1] at done
      simp at done
    · intro _
      have hit : row ∈ [row] := by simp
      rw [← only] at hit
      exact .inr ⟨rfl, row, inside, (List.mem_filter.mp hit).2,
        recorded.history.latest inside running⟩

theorem failJob_history (sound : db.Sound) (history : db.History) {jobId : Nat}
    {errorCode : Option String} {retryable : Bool} {reply : FailReply}
    (fits : ∀ job ∈ db.workflow.job? jobId, job.leaseIsStale owner leaseVersion = false →
      (db.workflow.attempts.any fun row => row.runsUnder jobId leaseVersion) = true)
    (returned : failJob db jobId owner leaseVersion errorCode retryable = .ok (later, reply)) :
    later.History := by
  simp only [failJob] at returned
  split at returned
  · simp at returned
  rename_i job found
  obtain ⟨member, rfl⟩ := Table.lookup_mem found
  split at returned
  · simp at returned
  rename_i held
  simp only [Bool.not_eq_true] at held
  have live : job.state.live = true := by rw [(held_leased held).1]; rfl
  have runs := fits job found held
  split at returned
  · cases returned
    exact failed_history sound history member held runs errorCode (.of_eq rfl) rfl rfl
      (fun _ => ⟨rfl, rfl, rfl⟩) (by simp)
  · cases returned
    exact failed_history sound history member held runs errorCode
      (.updateJob sound member live rfl) rfl rfl (fun _ => ⟨rfl, rfl, rfl⟩) (by simp)

theorem finishJob_history (calm : db.Calm) (numbered : db.Numbered) (history : db.History)
    {jobId : Nat} {outcome : Option String} {reply : Option ProcessState}
    (fits : ∀ job ∈ db.workflow.job? jobId, job.leaseIsStale owner leaseVersion = false →
      (db.workflow.attempts.any fun row => row.runsUnder jobId leaseVersion) = true)
    (returned : finishJob db jobId owner leaseVersion outcome = .ok (later, reply)) :
    later.History := by
  obtain ⟨job, next, member, rfl, held, move, reaches⟩ := finishJob_enters calm returned
  obtain ⟨other, found, _, added⟩ := finishJob_jobs returned
  have known := calm.sound.rows.job? member
  obtain rfl := Option.some.inj (known.symm.trans found)
  have completed := completeJob_history calm.sound history member held (fits job known held) outcome
  have rows := Db.completeJob_rows calm.sound.rows job leaseVersion outcome
  refine added.history ?_ rows.jobBound ?_ completed
  · exact Numbered.change numbered rfl rfl (fun _ => rfl) fun _ => ⟨rfl, rfl, rfl⟩
  · exact (Db.StepsClosed.placeStep rows _ _).trans
      (reaches.moves.stepsClosed (move.sound calm.sound))

/-! A claim. -/

theorem sweepExpired_history (history : db.History) : db.sweepExpired.History := by
  intro job member
  have recorded := history job member
  have attempts : opened db.sweepExpired.workflow.attempts job.id =
      Table.update (fun attempt => attempt.status = .running ∧ db.workflow.jobs.any fun job =>
        job.id = attempt.jobId ∧ job.expiredAt (db.clock (db.ticks + attempt.id)))
        (fun attempt => { attempt with status := .stale })
        (opened db.workflow.attempts job.id) := by
    refine opened_update ?_ job.id
    exact fun _ => rfl
  have runs : ∀ row ∈ opened db.workflow.attempts job.id, decide (row.status = .running ∧
      (db.workflow.jobs.any fun job => job.id = row.jobId ∧
        job.expiredAt (db.clock (db.ticks + row.id))) = true) = true → row.status = .running := by
    intro row _ hit
    simp only [decide_eq_true_eq] at hit
    exact hit.1
  constructor
  · rw [attempts]
    refine recorded.history.settle (fun _ => rfl) (fun _ => rfl) (by simp) runs rfl rfl ?_ ?_ ?_
    · exact fun row inside running _ => (recorded.history.running row inside running).1
    · simp
    · exact .inl
  · intro state
    obtain ⟨step, stepMember, key, completed, row, only, outcome⟩ := recorded.concluded state
    refine ⟨step, stepMember, key, completed, row, ?_, outcome⟩
    rw [attempts, Table.filter_update_away _ _ _ _ ?_ ?_]
    · exact only
    · intro other inside hit
      simp [runs other inside hit]
    · simp

def Db.Idle (db : Db) (jobId : Nat) : Prop :=
  ∀ row ∈ opened db.workflow.attempts jobId, row.status ≠ .running

def Db.leasedAttempt (db : Db) (job : Job) : Attempt where
  id := db.nextId
  jobId := job.id
  executionId := job.executionId
  leaseVersion := job.leaseVersion + 1
  attemptNumber := job.attemptCount + 1
  status := .running
  outcome := none
  errorCode := none

theorem leaseJob_opened (db : Db) (owner : String) (leaseMs : Option Int) (job : Job) (other : Nat) :
    opened (db.leaseJob owner leaseMs job).workflow.attempts other =
      opened db.workflow.attempts other ++
        if job.id = other then [db.leasedAttempt job] else [] := by
  by_cases same : job.id = other <;> simp [opened, Db.leaseJob, Db.leasedAttempt, same]

theorem leaseJob_history (sound : db.Sound) (history : db.History) {owner : String} {leaseMs : Option Int}
    (member : job ∈ db.workflow.jobs) (live : job.state.live = true) (idle : db.Idle job.id) :
    (db.leaseJob owner leaseMs job).History := by
  refine history.of_job job.id ?_ ?_ (.updateJob sound member live rfl) ?_
  · intro other otherMember different
    refine (job_update_cases sound.rows member ?_ otherMember).2 different
    exact fun _ => rfl
  · intro other different
    rw [leaseJob_opened, if_neg (Ne.symm different), List.append_nil]
  · intro after afterMember same
    have shape : after = { job with
        state := .leased, leaseOwner := some owner, leaseVersion := job.leaseVersion + 1
        leaseUntil := leaseMs.map fun count => db.now + milliseconds count, attemptCount := job.attemptCount + 1
        nextAttemptAt := none } := by
      refine (job_update_cases sound.rows member ?_ afterMember).1 same
      exact fun _ => rfl
    subst shape
    refine ⟨?_, nofun⟩
    rw [leaseJob_opened, if_pos rfl]
    exact (history job member).history.lease idle live rfl rfl rfl rfl rfl rfl

/-- A job that is leased and at once found to have no action any more. -/
theorem disableJob_history (sound : db.Sound) (numbered : db.Numbered) (history : db.History)
    {owner : String} {leaseMs : Option Int} (member : job ∈ db.workflow.jobs)
    (live : job.state.live = true) (idle : db.Idle job.id) :
    ((db.leaseJob owner leaseMs job).disableJob job db.nextId).History ∧
      ∀ other, other ≠ job.id → opened ((db.leaseJob owner leaseMs job).disableJob job
        db.nextId).workflow.attempts other = opened db.workflow.attempts other := by
  have leasedSound := (EngineMove.leased owner leaseMs member live).sound sound
  have leased : ({ job with
      state := .leased, leaseOwner := some owner, leaseVersion := job.leaseVersion + 1
      leaseUntil := leaseMs.map fun count => db.now + milliseconds count, attemptCount := job.attemptCount + 1
      nextAttemptAt := none } : Job) ∈ (db.leaseJob owner leaseMs job).workflow.jobs :=
    Table.mem_update.mpr ⟨job, member, by simp⟩
  have leasing : (db.leaseJob owner leaseMs job).History :=
    leaseJob_history sound history member live idle
  have recorded := leasing _ leased
  have attempts : ∀ other, opened ((db.leaseJob owner leaseMs job).disableJob job
      db.nextId).workflow.attempts other =
      Table.update (fun row => row.id = db.nextId)
        (fun row => { row with status := .failed, errorCode := some "workflow.action_disabled" })
        (opened (db.leaseJob owner leaseMs job).workflow.attempts other) := by
    intro other
    refine opened_update ?_ other
    exact fun _ => rfl
  -- only the attempt of this lease has the new id
  have old : ∀ row ∈ db.workflow.attempts, row.id ≠ db.nextId := by
    intro row rowMember
    have bound := numbered.idBound row rowMember
    omega
  have away : ∀ other, other ≠ job.id → opened ((db.leaseJob owner leaseMs job).disableJob job
      db.nextId).workflow.attempts other = opened db.workflow.attempts other := by
    intro other different
    rw [attempts, leaseJob_opened, if_neg (Ne.symm different), List.append_nil]
    apply Table.update_eq_self
    intro row inside
    simpa using old row (mem_opened.mp inside).1
  refine ⟨history.of_job job.id ?_ away ?_ ?_, away⟩
  · intro other otherMember different
    obtain ⟨before, beforeMember, rfl⟩ := Table.mem_update.mp otherMember
    obtain ⟨first, firstMember, rfl⟩ := Table.mem_update.mp beforeMember
    by_cases same : first.id = job.id
    · simp [same] at different
    · simpa [same] using firstMember
  · have first : db.StepsClosed (db.leaseJob owner leaseMs job) := .updateJob sound member live rfl
    exact first.trans (.updateJob leasedSound leased rfl rfl)
  · intro after afterMember same
    obtain ⟨before, beforeMember, rfl⟩ := Table.mem_update.mp afterMember
    have key : before.id = job.id := by
      by_contra hit
      simp [hit] at same
    obtain rfl := Table.key_unique leasedSound.rows.jobIds beforeMember leased key
    simp only [decide_true, if_true]
    refine ⟨?_, nofun⟩
    rw [attempts]
    refine recorded.history.settle (fun _ => rfl) (fun _ => rfl) (by simp) ?_ rfl rfl ?_ (by simp) ?_
    · intro row inside hit
      rw [leaseJob_opened, if_pos rfl] at inside
      rcases List.mem_append.mp inside with before | new
      · exact absurd (by simpa using hit) (old row (mem_opened.mp before).1)
      · simp only [List.mem_singleton] at new
        rw [new]
        rfl
    · intro row inside running missed
      rw [leaseJob_opened, if_pos rfl] at inside
      rcases List.mem_append.mp inside with before | new
      · exact absurd running (idle row before)
      · simp only [List.mem_singleton] at new
        simp [new, Db.leasedAttempt] at missed
    · intro _
      refine .inr ⟨rfl, db.leasedAttempt job, ?_, ?_, rfl⟩
      · rw [leaseJob_opened, if_pos rfl]
        exact List.mem_append_right _ (List.mem_singleton.mpr rfl)
      · simp [Db.leasedAttempt]

theorem claimOne_history (sound : db.Sound) (numbered : db.Numbered) (history : db.History)
    {owner : String} {leaseMs : Option Int} {claimed handed : List ClaimedJob}
    (member : job ∈ db.workflow.jobs) (live : job.state.live = true) (idle : db.Idle job.id)
    (returned : claimOne owner leaseMs (db, claimed) job = .ok (later, handed)) :
    later.History ∧ ∀ other, other ≠ job.id →
      opened later.workflow.attempts other = opened db.workflow.attempts other := by
  obtain ⟨leased, lease, rest⟩ := Runs.bind_eq_ok.mp returned
  have leasedEq : leased = db.leaseJob owner leaseMs job := by
    simp only [leaseJob] at lease
    split at lease
    · exact (Except.ok.inj lease).symm
    · simp at lease
  subst leasedEq
  have first : (db.leaseJob owner leaseMs job).History ∧ ∀ other, other ≠ job.id →
      opened (db.leaseJob owner leaseMs job).workflow.attempts other =
        opened db.workflow.attempts other := by
    refine ⟨leaseJob_history sound history member live idle, fun other different => ?_⟩
    rw [leaseJob_opened, if_neg (Ne.symm different), List.append_nil]
  have disabled : ((db.leaseJob owner leaseMs job).disableJob job db.nextId).History ∧
      ∀ other, other ≠ job.id → opened ((db.leaseJob owner leaseMs job).disableJob job
        db.nextId).workflow.attempts other = opened db.workflow.attempts other :=
    disableJob_history sound numbered history member live idle
  simp only at rest
  split at rest
  · split at rest
    · cases rest
      exact first
    · split at rest
      · split at rest
        · cases rest
          exact first
        · cases rest
          exact disabled
      · cases rest
        exact disabled
  · cases rest
    exact first

theorem claimAll_history {owner : String} {leaseMs : Option Int} : ∀ (jobs : List Job) (db later : Db)
    (claimed handed : List ClaimedJob), db.Calm → db.Numbered → db.History →
      (jobs.map Job.id).Nodup →
        (∀ job ∈ jobs, job ∈ db.workflow.jobs ∧ job.state.live = true ∧ db.Idle job.id) →
          jobs.foldlM (claimOne owner leaseMs) (db, claimed) = .ok (later, handed) →
            later.History := by
  intro jobs
  induction jobs with
  | nil =>
      intro db later claimed handed _ _ history _ _ returned
      cases returned
      exact history
  | cons job rest ih =>
      intro db later claimed handed calm numbered history unique members returned
      simp only [List.foldlM_cons] at returned
      obtain ⟨⟨next, between⟩, first, continued⟩ := Runs.bind_eq_ok.mp returned
      obtain ⟨member, live, idle⟩ := members job (by simp)
      obtain ⟨reaches, kept⟩ := claimOne_reaches calm member live first
      obtain ⟨nextHistory, away⟩ := claimOne_history calm.sound numbered history member live idle
        first
      simp only [List.map_cons, List.nodup_cons] at unique
      refine ih next later between handed (reaches.calm calm)
        (reaches.moves.numbered calm.sound numbered) nextHistory unique.2 ?_ continued
      intro other otherMember
      obtain ⟨inside, otherLive, otherIdle⟩ := members other (by simp [otherMember])
      have different : other.id ≠ job.id := fun same =>
        unique.1 (List.mem_map.mpr ⟨other, otherMember, same⟩)
      refine ⟨kept other inside different, otherLive, ?_⟩
      rw [Db.Idle, away other.id different]
      exact otherIdle

end Changes

/-! When the calls keep the history. -/

/-- The lease a worker reports on still has its attempt RUNNING. -/
def Db.LeaseRuns (db : Db) (jobId : Nat) (owner : Option String) (leaseVersion : Option Int) :
    Prop :=
  ∀ job ∈ db.workflow.job? jobId, job.leaseIsStale owner leaseVersion = false →
    (db.workflow.attempts.any fun row => row.runsUnder jobId leaseVersion) = true

/-- Every lease a claim takes over had run out when the claim marked the lapsed attempts. -/
def Db.LapsesSeen (db : Db) (batch : Option Int) (locked : Nat → Bool) : Prop :=
  ∀ job ∈ db.sweepExpired.pickJobs batch locked, ∀ attempt ∈ db.workflow.attempts,
    attempt.jobId = job.id → attempt.status = .running →
      job.expiredAt (db.clock (db.ticks + attempt.id)) = true

def Call.InTime (system : System) : Call → Prop
  | .claimJobs _ batch _ locked => system.db.LapsesSeen batch locked
  | .finishJob jobId owner leaseVersion _ => system.db.LeaseRuns jobId owner leaseVersion
  | .failJob jobId owner leaseVersion _ _ => system.db.LeaseRuns jobId owner leaseVersion
  | .work claimed =>
      system.db.LeaseRuns claimed.jobId (some claimed.owner) (some (claimed.leaseVersion : Int))
  | _ => True

instance {db : Db} {jobId : Nat} {owner : Option String} {leaseVersion : Option Int} :
    Decidable (db.LeaseRuns jobId owner leaseVersion) :=
  inferInstanceAs (Decidable (∀ job ∈ db.workflow.job? jobId, _ → _))

instance {db : Db} {batch : Option Int} {locked : Nat → Bool} :
    Decidable (db.LapsesSeen batch locked) :=
  inferInstanceAs (Decidable (∀ job ∈ _, ∀ attempt ∈ _, _ → _ → _))

instance {system : System} : (call : Call) → Decidable (call.InTime system)
  | .claimJobs _ batch _ locked => inferInstanceAs (Decidable (system.db.LapsesSeen batch locked))
  | .finishJob jobId owner leaseVersion _ =>
      inferInstanceAs (Decidable (system.db.LeaseRuns jobId owner leaseVersion))
  | .failJob jobId owner leaseVersion _ _ =>
      inferInstanceAs (Decidable (system.db.LeaseRuns jobId owner leaseVersion))
  | .work claimed => inferInstanceAs (Decidable (system.db.LeaseRuns claimed.jobId
      (some claimed.owner) (some (claimed.leaseVersion : Int))))
  | .startProcess .. | .acceptSignal .. | .reconcileInbox .. | .invoke .. | .claimOutbox ..
  | .succeedOutbox .. | .failOutbox .. => Decidable.isTrue trivial

theorem claimJobs_history {db later : Db} (calm : db.Calm) (numbered : db.Numbered)
    (history : db.History) {owner : String} {batch leaseMs : Option Int} {locked : Nat → Bool}
    {claimed : List ClaimedJob} (seen : db.LapsesSeen batch locked)
    (returned : claimJobs db owner batch leaseMs locked = .ok (later, claimed)) :
    later.History := by
  simp only [claimJobs] at returned
  split at returned
  · simp at returned
  split at returned
  · simp at returned
  split at returned
  · simp at returned
  obtain ⟨unique, members⟩ := pickJobs_spec db.sweepExpired batch locked calm.sound.rows.jobIds
  have swept : Db.Reaches 0 db { db.sweepExpired with
      ticks := db.sweepExpired.ticks + db.sweepExpired.nextId } :=
    ⟨(Relation.ReflTransGen.single (.swept 0)).tail (.ticked 0 _), calm.quiet 0⟩
  refine claimAll_history _ _ _ _ _ (swept.calm calm) (swept.moves.numbered calm.sound numbered)
    ((sweepExpired_history history).of_workflow rfl) unique ?_ returned
  intro job picked
  obtain ⟨member, live⟩ := members job picked
  refine ⟨member, live, ?_⟩
  intro row inside running
  obtain ⟨rowMember, owner⟩ := mem_opened.mp inside
  obtain ⟨old, oldMember, rfl⟩ := Table.mem_update.mp rowMember
  split at running
  · simp at running
  · rename_i missed
    simp only [missed] at owner
    have expired := seen job picked old oldMember owner running
    apply missed
    simp only [running, true_and, decide_eq_true_eq, List.any_eq_true]
    exact ⟨job, member, owner.symm, expired⟩

theorem work_history {db later : Db} (steady : db.Steady) (numbered : db.Numbered)
    (history : db.History) {claimed : ClaimedJob}
    (runs : db.LeaseRuns claimed.jobId (some claimed.owner) (some (claimed.leaseVersion : Int)))
    (returned : workTransaction db claimed = .ok later) : later.History := by
  obtain ⟨acted, outcome, reply, ran, completed⟩ := workTransaction_cases returned
  have moves := (runAction_moves steady ran).system
  have added := runAction_added ran
  have actedSteady := moves.steady steady
  have actedNumbered := SystemMoves.numbered moves steady numbered
  refine finishJob_history actedSteady.calm actedNumbered (added.history numbered
    steady.calm.sound.rows.jobBound (moves.stepsClosed steady) history) ?_ completed
  -- a job under a lease was there before the action
  intro job found held
  obtain ⟨member, key⟩ := Table.lookup_mem found
  rw [added.attempts]
  refine runs job ?_ held
  obtain ⟨more, jobs, _, facts⟩ := added.jobs
  rw [jobs] at member
  rcases List.mem_append.mp member with old | new
  · rw [← key]
    exact steady.calm.sound.rows.job? old
  · have ready := (facts job new).1
    rw [(held_leased held).1] at ready
    simp at ready

theorem step_history {system : System} (steady : system.db.Steady)
    (numbered : system.db.Numbered) (history : system.db.History) {call : Call}
    (inTime : call.InTime system) : (step system call).db.History := by
  simp only [step]
  split
  · cases returned : execDb system.db call with
    | none => exact history
    | some later =>
        have moves := (execDb_moves steady returned).system
        have foreign : call.isForeign = true → later.History := fun foreign =>
          (foreign_added foreign returned).history numbered steady.calm.sound.rows.jobBound
            (moves.stepsClosed steady) history
        cases call with
        | claimJobs owner batch leaseMs locked =>
            obtain ⟨claimed, ok⟩ := returned_db returned
            exact claimJobs_history steady.calm numbered history inTime ok
        | finishJob jobId owner leaseVersion outcome =>
            obtain ⟨reply, ok⟩ := returned_db returned
            exact finishJob_history steady.calm numbered history inTime ok
        | failJob jobId owner leaseVersion errorCode retryable =>
            obtain ⟨reply, ok⟩ := returned_db returned
            exact failJob_history steady.calm.sound history inTime ok
        | work claimed =>
            simp only [execDb] at returned
            cases worked : workTransaction system.db claimed with
            | error failure => simp [worked, Except.toOption] at returned
            | ok finished =>
                simp only [worked, Except.toOption, Option.some.injEq] at returned
                subst returned
                exact work_history steady numbered history inTime worked
        | _ => exact foreign rfl
  · exact history

structure AttemptsAgree (db : Db) (job : Job) : Prop where
  numbers : (opened db.workflow.attempts job.id).map Attempt.attemptNumber =
    List.range' 1 job.attemptCount
  leases : ∀ row ∈ opened db.workflow.attempts job.id, row.leaseVersion = row.attemptNumber
  oneRunning : (opened db.workflow.attempts job.id).countP (fun row => row.status = .running) ≤ 1
  running : ∀ row ∈ opened db.workflow.attempts job.id, row.status = .running →
    job.state = .leased ∧ row.leaseVersion = job.leaseVersion
  succeeded : job.state = .succeeded → ∃ step ∈ db.workflow.steps, step.id = job.stepInstanceId ∧
    ∃ row, (opened db.workflow.attempts job.id).filter (fun row => row.status = .succeeded) =
      [row] ∧ row.outcome = step.outcome
  failed : job.state = .retryWait ∨ job.state = .dead →
    ∃ row ∈ opened db.workflow.attempts job.id, row.attemptNumber = job.attemptCount ∧
      row.status = .failed

theorem Db.Recorded.agree {db : Db} {job : Job} (recorded : db.Recorded job) :
    AttemptsAgree db job where
  numbers := recorded.history.numbers
  leases := recorded.history.leases
  oneRunning := recorded.history.oneRunning fun _ member => (mem_opened.mp member).2
  running := recorded.history.running
  succeeded := by
    intro state
    obtain ⟨step, member, key, _, row, only, outcome⟩ := recorded.concluded state
    exact ⟨step, member, key, row, only, outcome⟩
  failed := recorded.history.failed

/-- As long as every report comes while its attempt is RUNNING, and every lease a claim takes
over had lapsed when the claim marked the lapsed attempts, the attempts agree with the jobs. -/
theorem attempts_agree (config : Config) (clock : Nat → Time) (digest : String → String)
    (calls : List Call) (inTime : Runs.Guarded step (fun system call => call.InTime system)
      (fresh config clock digest) calls) :
    ∀ job ∈ (reached config clock digest calls).db.workflow.jobs,
      AttemptsAgree (reached config clock digest calls).db job := by
  have held := @Runs.guarded_invariant System Call step (fun system call => call.InTime system)
    (fun system => system.db.Steady ∧ system.db.Numbered ∧ system.db.History)
    (fun system call kept fits => ⟨(step_moves kept.1 call).steady kept.1,
      SystemMoves.numbered (step_moves kept.1 call) kept.1 kept.2.1,
      step_history kept.1 kept.2.1 kept.2.2 fits⟩)
    calls (fresh config clock digest)
    ⟨initial_steady, reached_numbered config clock digest [], by simp [Db.History, fresh, Db.initial]⟩
    inTime
  exact fun job member => (held.2.2 job member).agree

namespace Seed

def frames (tick : Nat) : Time := tick * 16000

def applied (jobId : Nat) : Call := .finishJob jobId (some "worker") (some 1) (some "APPLIED")

def lateReport : List Call := [
  .startProcess "workflow-smoke" "first" (.object []),
  .startProcess "workflow-smoke" "second" (.object []),
  .claimJobs "worker" (some 2) (some 100) fun _ => false,
  .claimJobs "worker" (some 1) (some 100) fun _ => false, applied 6]

end Seed

theorem attempts_agree_smoke :
    ∃ job ∈ (seeded [Seed.smoke, Seed.lease, Seed.applied 2]).db.workflow.jobs,
      job.state = .succeeded ∧
        AttemptsAgree (seeded [Seed.smoke, Seed.lease, Seed.applied 2]).db job := by
  have done : ∃ job ∈ (seeded [Seed.smoke, Seed.lease, Seed.applied 2]).db.workflow.jobs,
      job.state = .succeeded := by decide +kernel
  obtain ⟨job, member, state⟩ := done
  exact ⟨job, member, state, attempts_agree _ _ _ _ (by decide +kernel) job member⟩

/-- A report after the lease lapsed leaves a SUCCEEDED job without a SUCCEEDED attempt, and a
lease that lapses inside a claim leaves two attempts RUNNING. -/
theorem attempts_disagree :
    (¬ ∀ job ∈ (reached Seed.config Seed.seconds id Seed.lateReport).db.workflow.jobs,
      AttemptsAgree (reached Seed.config Seed.seconds id Seed.lateReport).db job) ∧
    ¬ ∀ job ∈ (reached Seed.config Seed.frames id [Seed.smoke, Seed.lease,
        Seed.lease]).db.workflow.jobs,
      AttemptsAgree (reached Seed.config Seed.frames id [Seed.smoke, Seed.lease, Seed.lease]).db
        job := by
  constructor
  · intro agree
    have late : ∃ job ∈ (reached Seed.config Seed.seconds id Seed.lateReport).db.workflow.jobs,
        job.state = .succeeded ∧
          (opened (reached Seed.config Seed.seconds id Seed.lateReport).db.workflow.attempts
            job.id).filter (fun row => row.status = .succeeded) = [] := by decide +kernel
    obtain ⟨job, member, state, none⟩ := late
    obtain ⟨_, _, _, row, only, _⟩ := (agree job member).succeeded state
    rw [none] at only
    simp at only
  · intro agree
    have two : ∃ job ∈ (reached Seed.config Seed.frames id [Seed.smoke, Seed.lease,
        Seed.lease]).db.workflow.jobs,
        (opened (reached Seed.config Seed.frames id [Seed.smoke, Seed.lease,
          Seed.lease]).db.workflow.attempts job.id).countP (fun row => row.status = .running) =
            2 := by decide +kernel
    obtain ⟨job, member, count⟩ := two
    have one := (agree job member).oneRunning
    omega

end PaymentWorkflow
