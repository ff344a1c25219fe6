import PaymentWorkflow.EngineWrites
import PaymentWorkflow.SystemCalls

/-!
The job table under every call, whatever else the database holds: no invariant of the other
tables is assumed, so the results also hold in the view of a transaction that has not
committed.
-/

namespace PaymentWorkflow

structure JobsAdded (db later : Db) : Prop where
  nextId : db.nextId ≤ later.nextId
  jobs : ∃ added, later.workflow.jobs = db.workflow.jobs ++ added ∧ (added.map Job.id).Nodup ∧
    ∀ job ∈ added, job.state = .ready ∧ db.nextId ≤ job.id ∧ job.id < later.nextId
  attempts : later.workflow.attempts = db.workflow.attempts
  unclaimed : ∀ job ∈ later.workflow.jobs, job ∈ db.workflow.jobs ∨
    (job.attemptCount = 0 ∧ job.leaseVersion = 0)

namespace JobsAdded

variable {first second third db later : Db}

theorem of_eq (nextId : db.nextId ≤ later.nextId)
    (same : later.workflow.jobs = db.workflow.jobs)
    (attempts : later.workflow.attempts = db.workflow.attempts) : JobsAdded db later :=
  ⟨nextId, ⟨[], by simp [same], by simp, by simp⟩, attempts, fun job member => .inl (same ▸ member)⟩

theorem refl (db : Db) : JobsAdded db db := of_eq (Nat.le_refl _) rfl rfl

theorem trans (left : JobsAdded first second) (right : JobsAdded second third) :
    JobsAdded first third := by
  obtain ⟨added, jobs, unique, facts⟩ := left.jobs
  obtain ⟨more, moreJobs, moreUnique, moreFacts⟩ := right.jobs
  have leftBound := left.nextId
  have rightBound := right.nextId
  refine ⟨Nat.le_trans leftBound rightBound, ⟨added ++ more, ?_, ?_, ?_⟩,
    right.attempts.trans left.attempts, fun job member =>
      (right.unclaimed job member).elim (left.unclaimed job) .inr⟩
  · rw [moreJobs, jobs, List.append_assoc]
  · rw [List.map_append, List.nodup_append]
    refine ⟨unique, moreUnique, ?_⟩
    intro id member otherId otherMember same
    obtain ⟨job, jobMember, rfl⟩ := List.mem_map.mp member
    obtain ⟨other, otherJobMember, rfl⟩ := List.mem_map.mp otherMember
    have bound := (facts job jobMember).2.2
    have otherBound := (moreFacts other otherJobMember).2.1
    omega
  · intro job member
    rcases List.mem_append.mp member with old | new
    · obtain ⟨ready, lower, upper⟩ := facts job old
      exact ⟨ready, lower, by omega⟩
    · obtain ⟨ready, lower, upper⟩ := moreFacts job new
      exact ⟨ready, by omega, upper⟩

theorem after_eq (rest : JobsAdded second third) (nextId : first.nextId ≤ second.nextId)
    (same : second.workflow.jobs = first.workflow.jobs)
    (attempts : second.workflow.attempts = first.workflow.attempts) : JobsAdded first third :=
  (of_eq nextId same attempts).trans rest

end JobsAdded

theorem placeStep_added (db : Db) (processId : Nat) (definition : StepDefinition) :
    JobsAdded db (db.placeStep processId definition) := by
  refine ⟨Db.nextId_le_placeStep (Nat.le_refl _), ⟨db.placedJobs processId definition,
    Db.placeStep_jobs _ _ _, ?_, ?_⟩, Db.placeStep_attempts _ _ _, ?_⟩
  · rcases definition with ⟨_, _, _, stepType, _⟩
    cases stepType <;> simp [Db.placedJobs]
  · rw [Db.placeStep_nextId]
    rcases definition with ⟨_, _, _, stepType, _⟩
    cases stepType <;> simp [Db.placedJobs]
  · intro job member
    rw [Db.placeStep_jobs] at member
    rcases List.mem_append.mp member with old | new
    · exact .inl old
    · rcases definition with ⟨_, _, _, stepType, _⟩
      cases stepType <;> simp [Db.placedJobs] at new
      exact .inr (by simp [new])

def Adds (enter : EnterStep) : Prop :=
  ∀ (db : Db) (processId : Nat) (stepKey : String) (later : Db),
    enter db processId stepKey = .ok later → JobsAdded db later

theorem markApplied_added (db : Db) (messageId : String) :
    JobsAdded db (db.markApplied messageId) := .of_eq (Nat.le_refl _) rfl rfl

theorem jobsAdded_written : Written JobsAdded where
  refl := .refl
  trans left right := left.trans right
  placed := placeStep_added
  consumed _ _ _ _ _ := .of_eq (Nat.le_refl _) rfl rfl
  stored _ _ _ _ _ := .of_eq (Nat.le_refl _) rfl rfl
  applied := markApplied_added

theorem enterStep_adds : ∀ depth, Adds (enterStep depth) := jobsAdded_written.enterStep

section Calls

variable {db later : Db}

theorem startProcess_added {flowName businessKey : String} {data : Json} {reply : StartReply}
    (returned : startProcess db flowName businessKey data = .ok (later, reply)) :
    JobsAdded db later := by
  simp only [startProcess] at returned
  split at returned
  · split at returned
    · split at returned
      · cases returned
        exact .refl _
      · simp at returned
    · simp at returned
  · simp only [startProcessBody] at returned
    split at returned
    · simp at returned
    split at returned
    · simp at returned
    split at returned
    · split at returned
      · cases returned
        exact .refl _
      · simp at returned
    split at returned
    · simp at returned
    obtain ⟨entered, first, rest⟩ := Runs.bind_eq_ok.mp returned
    split at rest
    · cases rest
      exact (enterStep_adds _ _ _ _ _ first).after_eq (Nat.le_succ _) rfl rfl
    · simp at rest

theorem reconcileBatch_added (batch : List InboxRow) :
    ∀ state : Db × Nat, JobsAdded state.1 (batch.foldl reconcileOne state).1 := by
  induction batch with
  | nil => intro state; exact .refl _
  | cons message rest ih =>
      intro state
      refine JobsAdded.trans ?_ (ih (reconcileOne state message))
      simp only [reconcileOne]
      split
      · rename_i accepted
        exact (jobsAdded_written.acceptSignal (enterStep_adds _) accepted).trans (markApplied_added _ _)
      · exact .refl _

theorem manualV1_added {principal : Option String} {payload : Json} {envelope : Envelope}
    (returned : manualV1 db principal payload = .ok (later, envelope)) : JobsAdded db later := by
  obtain ⟨processId, _, rest⟩ := Runs.bind_eq_ok.mp returned
  obtain ⟨stepInstanceId, _, body⟩ := Runs.bind_eq_ok.mp rest
  split at body
  · cases body
    exact .refl _
  simp only [manualBody] at body
  split at body
  · cases body
    exact .refl _
  split at body
  · cases body
    exact .refl _
  split at body
  · cases body
    exact .refl _
  split at body
  · simp at body
  split at body
  · simp at body
  split at body
  · simp at body
  obtain ⟨advanced, first, last⟩ := Runs.bind_eq_ok.mp body
  cases last
  exact (jobsAdded_written.advance (enterStep_adds _) first).after_eq (Nat.le_succ _) rfl rfl

theorem OutsideMoves.added (moves : OutsideMoves db later) : JobsAdded db later :=
  .of_eq moves.nextId_le (by rw [moves.workflow_eq]) (by rw [moves.workflow_eq])

theorem closeOperation_added {operation : Operation} {status : OperationStatus}
    {eventType : OperationEventType} {outcome : String} {payload : Json} {envelope : Envelope}
    (returned : closeOperation db payload operation status eventType outcome = .ok (later, envelope)) :
    JobsAdded db later := by
  obtain ⟨closed, written, rest⟩ := Runs.bind_eq_ok.mp returned
  cases rest
  simp only [setStatus] at written
  split at written
  · cases written
    exact .refl _
  split at written
  · cases written
    exact .refl _
  split at written
  · simp at written
  · cases written
    exact .of_eq (Nat.le_refl _) rfl rfl

theorem withEvidence_added {operation : Operation} {receipt : ReceiptOutcome}
    {decision : DecisionOutcome} {receiptMissing decisionMissing : String}
    {body : Except SqlError (Db × Envelope)} {envelope : Envelope}
    (closes : body = .ok (later, envelope) → JobsAdded db later)
    (returned : withEvidence db operation receipt decision receiptMissing decisionMissing body =
      .ok (later, envelope)) : JobsAdded db later := by
  simp only [withEvidence] at returned
  split at returned <;> split at returned
  · exact closes returned
  · cases returned
    exact .refl _
  · exact closes returned
  · cases returned
    exact .refl _

theorem withOperation_added {payload : Json} {envelope : Envelope}
    {body : Operation → Except SqlError (Db × Envelope)}
    (kept : ∀ operation, body operation = .ok (later, envelope) → JobsAdded db later)
    (returned : withOperation db payload body = .ok (later, envelope)) : JobsAdded db later := by
  rcases withOperation_cases returned with ⟨rfl, _⟩ | ⟨operation, _, _, run⟩
  · exact .refl _
  · exact kept operation run

theorem submitOperation_added {operation : Operation} {payload : Json} {envelope : Envelope}
    (returned : submitOperation db payload operation = .ok (later, envelope)) : JobsAdded db later := by
  simp only [submitOperation] at returned
  split at returned
  · cases returned
    exact .refl _
  split at returned
  · cases returned
    exact .refl _
  split at returned
  · cases returned
    exact .refl _
  obtain ⟨⟨started, reply⟩, first, rest⟩ := Runs.bind_eq_ok.mp returned
  obtain ⟨submitted, written, last⟩ := Runs.bind_eq_ok.mp rest
  cases last
  refine (startProcess_added first).trans ?_
  simp only [setStatus] at written
  split at written
  · cases written
    exact .refl _
  split at written
  · cases written
    exact .refl _
  split at written
  · simp at written
  · cases written
    exact .of_eq (Nat.le_refl _) rfl rfl

theorem runTarget_added {target : Target} {context : Context} {payload : Json}
    {envelope : Envelope} (returned : runTarget target db context payload = .ok (later, envelope)) :
    JobsAdded db later := by
  cases target with
  | requestV1 => exact (requestV1_moves returned).added
  | getV1 => exact (reading_moves returned).added
  | operationEventsV1 => exact (reading_moves returned).added
  | submitV1 => exact withOperation_added (fun _ => submitOperation_added) returned
  | validateV1 => exact (validateV1_moves returned).added
  | prepareExternalV1 => exact (prepareExternalV1_moves returned).added
  | applyReceiptV1 => exact (applyReceiptV1_moves returned).added
  | checkLimitV1 => exact (checkLimitV1_moves returned).added
  | approveV1 =>
      refine withOperation_added (fun operation run => ?_) returned
      split at run
      · exact closeOperation_added run
      · cases run
        exact .refl _
  | completeV1 =>
      exact withOperation_added (fun _ => withEvidence_added closeOperation_added) returned
  | rejectV1 =>
      exact withOperation_added (fun _ => withEvidence_added closeOperation_added) returned
  | receiptAcceptV1 => exact (receiptAcceptV1_moves returned).added
  | manualV1 => exact manualV1_added returned

theorem invoke_added {module action : String} {version : Option Int} {context : Context}
    {payload : Json} {envelope : Envelope}
    (returned : invoke db module action version context payload = .ok (later, envelope)) :
    JobsAdded db later := by
  rcases invoke_cases returned with ⟨rfl, _⟩ | ⟨row, target, changed, _, _, _, ran, recorded⟩
  · exact .refl _
  · exact (runTarget_added ran).trans (recordDispatch_moves recorded).added

theorem runAction_added {claimed : ClaimedJob} {outcome : String}
    (returned : runAction db claimed = .ok (later, outcome)) : JobsAdded db later := by
  obtain ⟨_, _, _, invoked, _⟩ := runAction_cases returned
  exact invoke_added invoked

/-! The calls that change a job they are given the lease of, or lease one. -/

structure JobsChanged (touched : Nat → Prop) (db later : Db) : Prop where
  nextId : db.nextId ≤ later.nextId
  ids : later.workflow.jobs.map Job.id = db.workflow.jobs.map Job.id
  rows : ∀ row ∈ later.workflow.jobs, (row ∈ db.workflow.jobs ∧ ¬ touched row.id) ∨
    (touched row.id ∧ row.state ≠ .succeeded)

theorem JobsChanged.refl (touched : Nat → Prop) (db : Db)
    (missed : ∀ row ∈ db.workflow.jobs, ¬ touched row.id) : JobsChanged touched db db :=
  ⟨Nat.le_refl _, rfl, fun row member => .inl ⟨member, missed row member⟩⟩

theorem JobsChanged.trans {first second third : Db} {left right both : Nat → Prop}
    (start : JobsChanged left first second) (rest : JobsChanged right second third)
    (union : ∀ id, both id ↔ left id ∨ right id) : JobsChanged both first third where
  nextId := Nat.le_trans start.nextId rest.nextId
  ids := rest.ids.trans start.ids
  rows := by
    intro row member
    rw [union]
    rcases rest.rows row member with ⟨between, missed⟩ | ⟨hit, open_⟩
    · rcases start.rows row between with ⟨before, missedToo⟩ | ⟨hit, open_⟩
      · exact .inl ⟨before, by simp [missed, missedToo]⟩
      · exact .inr ⟨.inl hit, open_⟩
    · exact .inr ⟨.inr hit, open_⟩

theorem JobsChanged.row {touched : Nat → Prop} (changed : JobsChanged touched db later) {job : Job}
    (member : job ∈ db.workflow.jobs) : ∃ row ∈ later.workflow.jobs, row.id = job.id := by
  have key := List.mem_map_of_mem (f := Job.id) member
  rw [← changed.ids] at key
  exact List.mem_map.mp key

theorem JobsChanged.of_update {jobId : Nat} {change : Job → Job}
    (nextId : db.nextId ≤ later.nextId)
    (jobs : later.workflow.jobs = Table.update (fun row => row.id = jobId) change db.workflow.jobs)
    (sameId : ∀ row, (change row).id = row.id) (open_ : ∀ row, (change row).state ≠ .succeeded) :
    JobsChanged (· = jobId) db later where
  nextId := nextId
  ids := by rw [jobs, Table.map_update _ _ _ sameId]
  rows := by
    intro row member
    rw [jobs] at member
    obtain ⟨old, oldMember, rfl⟩ := Table.mem_update.mp member
    by_cases hit : old.id = jobId
    · simp only [hit, decide_true, if_true, sameId, true_and]
      exact .inr (open_ old)
    · simp only [hit, decide_false]
      exact .inl ⟨oldMember, hit⟩

theorem finishJob_jobs {jobId : Nat} {owner outcome : Option String} {leaseVersion : Option Int}
    {reply : Option ProcessState}
    (returned : finishJob db jobId owner leaseVersion outcome = .ok (later, reply)) :
    ∃ job, db.workflow.job? jobId = some job ∧ job.leaseIsStale owner leaseVersion = false ∧
      JobsAdded (db.completeJob job leaseVersion outcome) later := by
  simp only [finishJob] at returned
  split at returned
  · simp at returned
  rename_i job found
  split at returned
  · simp at returned
  rename_i held
  split at returned
  · split at returned
    · simp at returned
    obtain ⟨advanced, first, rest⟩ := Runs.bind_eq_ok.mp returned
    cases rest
    exact ⟨job, found, by simpa using held,
      jobsAdded_written.advance (enterStep_adds _) first⟩
  · simp at returned

theorem failJob_jobs {jobId : Nat} {owner errorCode : Option String} {leaseVersion : Option Int}
    {retryable : Bool} {reply : FailReply}
    (returned : failJob db jobId owner leaseVersion errorCode retryable = .ok (later, reply)) :
    (∃ job ∈ db.workflow.jobs, job.id = jobId ∧ job.leaseIsStale owner leaseVersion = false) ∧
      JobsChanged (· = jobId) db later := by
  simp only [failJob] at returned
  split at returned
  · simp at returned
  rename_i job found
  obtain ⟨member, rfl⟩ := Table.lookup_mem found
  split at returned
  · simp at returned
  rename_i held
  refine ⟨⟨job, member, rfl, by simpa using held⟩, ?_⟩
  split at returned
  · cases returned
    exact .of_update (Nat.le_refl _) rfl (fun _ => rfl) fun _ => by simp
  · cases returned
    exact .of_update (Nat.le_refl _) rfl (fun _ => rfl) fun _ => by simp

theorem leaseJob_jobs (db : Db) (owner : String) (leaseMs : Option Int) (job : Job) :
    JobsChanged (· = job.id) db (db.leaseJob owner leaseMs job) :=
  .of_update (Nat.le_succ _) rfl (fun _ => rfl) fun _ => by simp

theorem disableJob_jobs (db : Db) (job : Job) (attemptId : Nat) :
    JobsChanged (· = job.id) db (db.disableJob job attemptId) :=
  .of_update (Nat.le_refl _) rfl (fun _ => rfl) fun _ => by simp

theorem claimOne_jobs {owner : String} {leaseMs : Option Int} {claimed handed : List ClaimedJob}
    {job : Job} (returned : claimOne owner leaseMs (db, claimed) job = .ok (later, handed)) :
    JobsChanged (· = job.id) db later := by
  obtain ⟨leased, lease, rest⟩ := Runs.bind_eq_ok.mp returned
  have leasedEq : leased = db.leaseJob owner leaseMs job := by
    simp only [leaseJob] at lease
    split at lease
    · exact (Except.ok.inj lease).symm
    · simp at lease
  subst leasedEq
  have first := leaseJob_jobs db owner leaseMs job
  have disabled : ∀ attemptId, JobsChanged (· = job.id) db
      ((db.leaseJob owner leaseMs job).disableJob job attemptId) :=
    fun attemptId => first.trans (disableJob_jobs _ job attemptId) fun id => by simp
  simp only at rest
  split at rest
  · split at rest
    · cases rest
      exact first
    · split at rest
      · split at rest
        · cases rest
          exact first
        · cases rest
          exact disabled _
      · cases rest
        exact disabled _
  · cases rest
    exact first

theorem claimAll_jobs {owner : String} {leaseMs : Option Int} : ∀ (picked : List Job) (db later : Db)
    (claimed handed : List ClaimedJob),
      picked.foldlM (claimOne owner leaseMs) (db, claimed) = .ok (later, handed) →
        JobsChanged (fun id => ∃ job ∈ picked, job.id = id) db later := by
  intro picked
  induction picked with
  | nil =>
      intro db later claimed handed returned
      cases returned
      exact .refl _ _ (by simp)
  | cons job rest ih =>
      intro db later claimed handed returned
      simp only [List.foldlM_cons] at returned
      obtain ⟨⟨next, between⟩, first, continued⟩ := Runs.bind_eq_ok.mp returned
      refine (claimOne_jobs first).trans (ih next later between handed continued) ?_
      intro id
      simp [eq_comm]

/-- A claim only touches live jobs that no other transaction has locked. -/
theorem claimJobs_jobs {owner : String} {batch leaseMs : Option Int} {locked : Nat → Bool}
    {claimed : List ClaimedJob} (unique : (db.workflow.jobs.map Job.id).Nodup)
    (returned : claimJobs db owner batch leaseMs locked = .ok (later, claimed)) :
    JobsChanged (fun id => ∃ job ∈ db.workflow.jobs, job.id = id ∧ job.state.live = true ∧
      locked id = false) db later := by
  simp only [claimJobs] at returned
  split at returned
  · simp at returned
  split at returned
  · simp at returned
  split at returned
  · simp at returned
  have changed := claimAll_jobs _ _ _ _ _ returned
  have members := (pickJobs_spec db.sweepExpired batch locked unique).2
  have open_ : ∀ job ∈ db.sweepExpired.pickJobs batch locked, locked job.id = false := by
    intro job member
    have filtered := (Table.takeLimit_sublist batch _).subset member
    simpa using (List.mem_filter.mp filtered).2
  refine ⟨changed.nextId, changed.ids, ?_⟩
  intro row member
  rcases changed.rows row member with ⟨before, missed⟩ | ⟨⟨job, picked, same⟩, notDone⟩
  · by_cases hit : ∃ job ∈ db.workflow.jobs, job.id = row.id ∧ job.state.live = true ∧
        locked row.id = false
    · obtain ⟨job, jobMember, same, live, _⟩ := hit
      obtain rfl := Table.key_unique unique jobMember before same
      refine .inr ⟨⟨job, jobMember, rfl, live, by assumption⟩, ?_⟩
      intro done
      rw [done] at live
      simp [JobState.live] at live
    · exact .inl ⟨before, hit⟩
  · obtain ⟨jobMember, live⟩ := members job picked
    exact .inr ⟨⟨job, jobMember, same, live, same ▸ open_ job picked⟩, notDone⟩

end Calls

end PaymentWorkflow
