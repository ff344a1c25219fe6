import PaymentWorkflow.EngineCalls

/-! The calls of the engine, each as the moves it makes. -/

namespace PaymentWorkflow

structure Db.Calm (db : Db) : Prop where
  sound : db.Sound
  quiet : ∀ processId, (db.view processId).Quiet db.config

abbrev Db.Steps : Db → Db → Prop :=
  Relation.ReflTransGen fun db later => ∃ processId, Db.Reaches processId db later

namespace Db

variable {db later : Db}

theorem Reaches.calm {processId : Nat} (reaches : Reaches processId db later) (calm : db.Calm) :
    later.Calm where
  sound := reaches.sound calm.sound
  quiet := by
    intro other
    by_cases same : other = processId
    · exact same ▸ reaches.quiet
    · rw [reaches.moves.frame calm.sound same, reaches.moves.config_eq]
      exact calm.quiet other

theorem Steps.calm (steps : db.Steps later) (calm : db.Calm) : later.Calm := by
  induction steps with
  | refl => exact calm
  | tail _ reaches ih => exact reaches.choose_spec.calm ih

theorem Steps.config_eq (steps : db.Steps later) : later.config = db.config := by
  induction steps with
  | refl => rfl
  | tail _ reaches ih => rw [reaches.choose_spec.moves.config_eq, ih]

theorem Reaches.steps {processId : Nat} (reaches : Reaches processId db later) : db.Steps later :=
  .single ⟨processId, reaches⟩

theorem quiet_of_state {processId : Nat} {config : Config} {process : Process}
    (settled : (db.view processId).Settled)
    (found : (db.view processId).process = some process) (state : process.state ≠ .waitingSignal) :
    (db.view processId).Quiet config :=
  View.quiet_of_notWaiting fun _ member waits => state (settled.of_waits found member waits).1

end Db

section Calls

variable {db later : Db}

theorem startProcess_reaches (calm : db.Calm) {flowName businessKey : String} {data : Json}
    {reply : StartReply}
    (returned : startProcess db flowName businessKey data = .ok (later, reply)) :
    Db.Reaches db.nextId db later := by
  have unchanged : Db.Reaches db.nextId db db := ⟨.refl, calm.quiet _⟩
  simp only [startProcess] at returned
  split at returned
  · split at returned
    · split at returned
      · cases returned
        exact unchanged
      · simp at returned
    · simp at returned
  · simp only [startProcessBody] at returned
    split at returned
    · simp at returned
    split at returned
    · simp at returned
    split at returned
    · split at returned
      · cases returned
        exact unchanged
      · simp at returned
    rename_i absent
    split at returned
    · simp at returned
    rename_i version active
    obtain ⟨entered, first, rest⟩ := Runs.bind_eq_ok.mp returned
    split at rest
    · cases rest
      obtain ⟨process, definition, found, defined, reaches⟩ := enterStep_enters _ _ _ _ _ first
      have rows := Db.startRows calm.sound.rows flowName version.version businessKey data
      have same : process = ⟨db.nextId, flowName, version.version, businessKey, .created, none,
          data⟩ := by
        have here := @Db.Rows.process? _ rows ⟨db.nextId, flowName, version.version, businessKey,
          .created, none, data⟩ (by simp)
        exact Option.some.inj (found.symm.trans here)
      subst same
      have move := @EngineMove.started db _ _ data _ _ absent active defined
      exact Db.Reaches.after (.single move) (reaches rows (move.sound calm.sound))
    · simp at rest

theorem acceptSignalCall_reaches (calm : db.Calm) {processId : Nat} {signalType messageId : String}
    {payload : Json} {reply : SignalReply}
    (returned : acceptSignalCall db processId signalType messageId payload = .ok (later, reply)) :
    Db.Reaches processId db later :=
  acceptSignal_reaches (enterStep_enters _) calm.sound (calm.quiet _) returned

theorem reconcileOne_steps (state : Db × Nat) (message : InboxRow) (calm : state.1.Calm) :
    state.1.Steps (reconcileOne state message).1 := by
  simp only [reconcileOne]
  split
  · rename_i accepted reply returned
    have reaches := acceptSignal_reaches (enterStep_enters _) calm.sound (calm.quiet _) returned
    exact Db.Reaches.steps ⟨reaches.moves.tail (.applied _ message.messageId), reaches.quiet⟩
  · exact .refl

theorem reconcileBatch_steps (batch : List InboxRow) :
    ∀ state : Db × Nat, state.1.Calm → state.1.Steps (batch.foldl reconcileOne state).1 := by
  induction batch with
  | nil => intro state _; exact .refl
  | cons message rest ih =>
      intro state calm
      have head := reconcileOne_steps state message calm
      exact head.trans (ih _ (head.calm calm))

theorem reconcileInbox_steps (calm : db.Calm) {limit : Option Int} {locked : String → Bool} {count : Nat}
    (returned : reconcileInbox db limit locked = .ok (later, count)) : db.Steps later := by
  simp only [reconcileInbox] at returned
  split at returned
  · simp at returned
  · have steps := reconcileBatch_steps (db.reconcileBatch limit locked) (db, 0) calm
    rw [show (db.reconcileBatch limit locked).foldl reconcileOne (db, 0) = (later, count) from
      Except.ok.inj returned] at steps
    exact steps

theorem finishJob_enters (calm : db.Calm) {jobId : Nat} {owner outcome : Option String}
    {leaseVersion : Option Int} {reply : Option ProcessState}
    (returned : finishJob db jobId owner leaseVersion outcome = .ok (later, reply)) :
    ∃ job next, job ∈ db.workflow.jobs ∧ job.id = jobId ∧
      job.leaseIsStale owner leaseVersion = false ∧
      EngineMove job.processId db
        ((db.completeJob job leaseVersion outcome).placeStep job.processId next) ∧
      Db.Reaches job.processId
        ((db.completeJob job leaseVersion outcome).placeStep job.processId next) later := by
  simp only [finishJob] at returned
  split at returned
  · simp at returned
  rename_i job found
  obtain ⟨member, jobKey⟩ := Table.lookup_mem found
  split at returned
  · simp at returned
  rename_i held
  simp only [Bool.not_eq_true] at held
  split at returned
  · rename_i step process stepFound processFound
    split at returned
    · simp at returned
    obtain ⟨advanced, first, rest⟩ := Runs.bind_eq_ok.mp returned
    cases rest
    obtain ⟨current, currentMember, currentOwns, live, liveMember, runs, liveOwns, state, key,
      automatic, _⟩ := calm.sound.running member (by rw [(held_leased held).1]; rfl)
    obtain ⟨stepMember, stepKey⟩ := Table.lookup_mem stepFound
    obtain ⟨processMember, processKey⟩ := Table.lookup_mem processFound
    obtain rfl := Table.key_unique calm.sound.rows.processIds currentMember processMember
      (currentOwns.trans processKey.symm)
    obtain ⟨transition, next, leads, placed, reaches⟩ := @advance_reaches _
      (db.completeJob job leaseVersion outcome) _ _ (enterStep_enters _) _ _ processFound (by rw [state]; simp) first
    have move := EngineMove.finished member held stepMember stepKey processMember processKey leads
      placed
    exact ⟨job, next, member, jobKey, held, move, reaches
      (Db.completeJob_rows calm.sound.rows _ _ _) (move.sound calm.sound)⟩
  · simp at returned

theorem finishJob_reaches (calm : db.Calm) {jobId : Nat} {owner outcome : Option String}
    {leaseVersion : Option Int} {reply : Option ProcessState}
    (returned : finishJob db jobId owner leaseVersion outcome = .ok (later, reply)) :
    ∃ job ∈ db.workflow.jobs, job.id = jobId ∧ job.leaseIsStale owner leaseVersion = false ∧
      Db.Reaches job.processId db later := by
  obtain ⟨job, next, member, jobKey, held, move, reaches⟩ := finishJob_enters calm returned
  exact ⟨job, member, jobKey, held, Db.Reaches.after (.single move) reaches⟩

theorem failJob_reaches (calm : db.Calm) {jobId : Nat} {owner errorCode : Option String}
    {leaseVersion : Option Int} {retryable : Bool} {reply : FailReply}
    (returned : failJob db jobId owner leaseVersion errorCode retryable = .ok (later, reply)) :
    ∃ job ∈ db.workflow.jobs, job.id = jobId ∧ job.leaseIsStale owner leaseVersion = false ∧
      Db.Reaches job.processId db later := by
  simp only [failJob] at returned
  split at returned
  · simp at returned
  rename_i job found
  obtain ⟨member, jobKey⟩ := Table.lookup_mem found
  split at returned
  · simp at returned
  rename_i held
  simp only [Bool.not_eq_true] at held
  refine ⟨job, member, jobKey, held, ?_⟩
  subst jobKey
  obtain ⟨process, processMember, owns, _, _, _, _, state, _⟩ :=
    calm.sound.running member (by rw [(held_leased held).1]; rfl)
  split at returned
  · rename_i allowed
    cases returned
    have move := EngineMove.retried errorCode
      ((db.retryOf job).2.map fun count => db.now + milliseconds count) member held allowed.2 rfl
    refine ⟨.single move, @Db.quiet_of_state _ _ _ process (move.settled calm.sound) ?_ ?_⟩
    · rw [← owns]
      exact calm.sound.rows.process? processMember
    · rw [state]
      simp
  · cases returned
    have move := EngineMove.died errorCode member held
    refine ⟨.single move, @Db.quiet_of_state _ _ _ { process with state := .failed }
      (move.settled calm.sound) ?_ (by simp)⟩
    rw [Db.view_buryJob, if_pos rfl]
    show (db.workflow.process? job.processId).map _ = _
    rw [← owns, calm.sound.rows.process? processMember]
    rfl

theorem manualBody_reaches (calm : db.Calm) {principal decision reason : Option String}
    {processId stepInstanceId : Option Nat} {envelope : Envelope}
    (returned : manualBody db principal processId stepInstanceId decision reason =
      .ok (later, envelope)) : ∃ owner, Db.Reaches owner db later := by
  have unchanged : ∃ owner, Db.Reaches owner db db := ⟨0, .refl, calm.quiet _⟩
  simp only [manualBody] at returned
  split at returned
  · cases returned
    exact unchanged
  rename_i process found
  split at returned
  · cases returned
    exact unchanged
  rename_i step stepFound
  split at returned
  · cases returned
    exact unchanged
  rename_i awaited
  simp only [not_or, ne_eq, not_not] at awaited
  split at returned
  · simp at returned
  rename_i decisionText
  split at returned
  · simp at returned
  rename_i outcome known
  split at returned
  · simp at returned
  rename_i undecided
  obtain ⟨advanced, first, rest⟩ := Runs.bind_eq_ok.mp returned
  cases rest
  obtain ⟨_, _, processFound⟩ := Option.bind_eq_some_iff.mp found
  obtain ⟨_, _, stepFound⟩ := Option.bind_eq_some_iff.mp stepFound
  have processMember := (Table.lookup_mem processFound).1
  have stepMember := (Table.lookup_mem stepFound).1
  have found' := calm.sound.rows.process? processMember
  obtain ⟨_, _, _, _, state⟩ := (calm.sound.settled process.id).of_waiting found'
    (Db.mem_view_steps.mpr ⟨stepMember, awaited.1⟩) awaited.2.2 (by rw [awaited.2.1]; simp)
  obtain ⟨transition, next, leads, placed, reaches⟩ := @advance_reaches _
    ((db.insertDecision process.id step.id .manual principal (reason.map db.digest) outcome
      none).completeManual process.id step.id decisionText) _ _ (enterStep_enters _) _ _ found'
    (by rw [state awaited.2.1]; simp) first
  have move := EngineMove.decided principal (reason.map db.digest) processMember stepMember
    awaited.1 awaited.2.1 awaited.2.2 known (by simpa using undecided) leads placed
  exact ⟨process.id, Db.Reaches.after (.single move) (reaches
    (Db.decide_rows calm.sound.rows _ _ _ _ _ _) (move.sound calm.sound))⟩

theorem manualV1_reaches (calm : db.Calm) {principal : Option String} {payload : Json}
    {envelope : Envelope} (returned : manualV1 db principal payload = .ok (later, envelope)) :
    ∃ owner, Db.Reaches owner db later := by
  obtain ⟨processId, _, rest⟩ := Runs.bind_eq_ok.mp returned
  obtain ⟨stepInstanceId, _, body⟩ := Runs.bind_eq_ok.mp rest
  split at body
  · cases body
    exact ⟨0, .refl, calm.quiet _⟩
  · exact manualBody_reaches calm body

/-! A claim leases one job after another; a turn leaves the rows of the later turns alone. -/

theorem claimOne_reaches (calm : db.Calm) {owner : String} {leaseMs : Option Int} {job : Job}
    {claimed handed : List ClaimedJob} (member : job ∈ db.workflow.jobs)
    (live : job.state.live = true)
    (returned : claimOne owner leaseMs (db, claimed) job = .ok (later, handed)) :
    Db.Reaches job.processId db later ∧
      ∀ other ∈ db.workflow.jobs, other.id ≠ job.id → other ∈ later.workflow.jobs := by
  obtain ⟨leased, lease, rest⟩ := Runs.bind_eq_ok.mp returned
  have leasedEq : leased = db.leaseJob owner leaseMs job := by
    simp only [leaseJob] at lease
    split at lease
    · exact (Except.ok.inj lease).symm
    · simp at lease
  subst leasedEq
  have move := EngineMove.leased owner leaseMs member live
  obtain ⟨process, processMember, owns, _, _, _, _, state, _⟩ := calm.sound.running member live
  have found : ((db.leaseJob owner leaseMs job).view job.processId).process = some process := by
    rw [← owns]
    exact calm.sound.rows.process? processMember
  have leasedReaches : Db.Reaches job.processId db (db.leaseJob owner leaseMs job) :=
    ⟨.single move, Db.quiet_of_state (move.settled calm.sound) found (by rw [state]; simp)⟩
  have kept : ∀ other ∈ db.workflow.jobs, other.id ≠ job.id →
      other ∈ (db.leaseJob owner leaseMs job).workflow.jobs := by
    intro other otherMember different
    simp only [Db.leaseJob, Db.insertAttempt_workflow_jobs, Db.updateJob_workflow_jobs,
      Table.mem_update]
    exact ⟨other, otherMember, by simp [different]⟩
  have disabledReaches : Db.Reaches job.processId db
      ((db.leaseJob owner leaseMs job).disableJob job db.nextId) := by
    have row : ∃ row ∈ (db.leaseJob owner leaseMs job).workflow.jobs, row.state = .leased ∧
        row.fixed = job.fixed := by
      simp only [Db.leaseJob, Db.insertAttempt_workflow_jobs, Db.updateJob_workflow_jobs]
      refine ⟨{ job with
        state := .leased, leaseOwner := some owner, leaseVersion := job.leaseVersion + 1
        leaseUntil := leaseMs.map fun count => db.now + milliseconds count, attemptCount := job.attemptCount + 1
        nextAttemptAt := none }, ?_, rfl, rfl⟩
      exact Table.mem_update.mpr ⟨job, member, by simp⟩
    obtain ⟨row, rowMember, rowLeased, rowSame⟩ := row
    have next := EngineMove.disabled db.nextId rowMember rowLeased rowSame
      ⟨_, List.mem_append_right _ (List.mem_singleton.mpr rfl), rfl, rfl⟩
    refine ⟨(Relation.ReflTransGen.single move).tail next, @Db.quiet_of_state _ _ _
      { process with state := .failed } (next.settled (move.sound calm.sound)) ?_ (by simp)⟩
    rw [Db.disableJob_eq, Db.view_buryJob, if_pos rfl]
    show ((db.leaseJob owner leaseMs job).view job.processId).process.map _ = _
    rw [found]
    rfl
  have keptDisabled : ∀ attemptId, ∀ other ∈ db.workflow.jobs, other.id ≠ job.id →
      other ∈ ((db.leaseJob owner leaseMs job).disableJob job attemptId).workflow.jobs := by
    intro attemptId other otherMember different
    simp only [Db.disableJob, Db.insertEvent_workflow_jobs, Db.updateProcess_workflow_jobs,
      Db.updateStep_workflow_jobs, Db.updateJob_workflow_jobs, Db.updateAttempts_workflow_jobs,
      Table.mem_update]
    exact ⟨other, kept other otherMember different, by simp [different]⟩
  simp only at rest
  split at rest
  · split at rest
    · cases rest
      exact ⟨leasedReaches, kept⟩
    · split at rest
      · split at rest
        · cases rest
          exact ⟨leasedReaches, kept⟩
        · cases rest
          exact ⟨disabledReaches, keptDisabled _⟩
      · cases rest
        exact ⟨disabledReaches, keptDisabled _⟩
  · cases rest
    exact ⟨leasedReaches, kept⟩

theorem claimAll_steps {owner : String} {leaseMs : Option Int} : ∀ (jobs : List Job) (db later : Db)
    (claimed handed : List ClaimedJob), db.Calm → (jobs.map Job.id).Nodup →
      (∀ job ∈ jobs, job ∈ db.workflow.jobs ∧ job.state.live = true) →
        jobs.foldlM (claimOne owner leaseMs) (db, claimed) = .ok (later, handed) →
          db.Steps later := by
  intro jobs
  induction jobs with
  | nil =>
      intro db later claimed handed _ _ _ returned
      cases returned
      exact .refl
  | cons job rest ih =>
      intro db later claimed handed calm unique members returned
      simp only [List.foldlM_cons] at returned
      obtain ⟨⟨next, between⟩, first, continued⟩ := Runs.bind_eq_ok.mp returned
      obtain ⟨member, live⟩ := members job (by simp)
      obtain ⟨reaches, kept⟩ := claimOne_reaches calm member live first
      simp only [List.map_cons, List.nodup_cons] at unique
      refine reaches.steps.trans (ih next later between handed (reaches.calm calm) unique.2 ?_
        continued)
      intro other otherMember
      obtain ⟨inside, otherLive⟩ := members other (by simp [otherMember])
      refine ⟨kept other inside ?_, otherLive⟩
      intro same
      exact unique.1 (List.mem_map.mpr ⟨other, otherMember, same⟩)

theorem pickJobs_spec (db : Db) (batch : Option Int) (locked : Nat → Bool)
    (unique : (db.workflow.jobs.map Job.id).Nodup) :
    ((db.pickJobs batch locked).map Job.id).Nodup ∧
      ∀ job ∈ db.pickJobs batch locked, job ∈ db.workflow.jobs ∧ job.state.live = true := by
  have part : (db.pickJobs batch locked).Sublist _ :=
    (Table.takeLimit_sublist batch _).trans List.filter_sublist
  obtain ⟨keys, members⟩ := Table.sorted_pick unique (List.perm_insertionSort _ _) part
  refine ⟨keys, ?_⟩
  intro job member
  obtain ⟨inside, claimable⟩ := members job member
  refine ⟨inside, ?_⟩
  simp only [Job.claimableAt, Job.expiredAt, decide_eq_true_eq] at claimable
  rcases claimable with ⟨ready | waits, _⟩ | expired
  · rw [ready]
    rfl
  · rw [waits]
    rfl
  · rw [expired.1]
    rfl

theorem claimJobs_steps (calm : db.Calm) {owner : String} {batch leaseMs : Option Int}
    {locked : Nat → Bool} {claimed : List ClaimedJob}
    (returned : claimJobs db owner batch leaseMs locked = .ok (later, claimed)) :
    db.Steps later := by
  simp only [claimJobs] at returned
  split at returned
  · simp at returned
  split at returned
  · simp at returned
  split at returned
  · simp at returned
  obtain ⟨unique, members⟩ := pickJobs_spec db.sweepExpired batch locked calm.sound.rows.jobIds
  have swept : Db.Reaches 0 db { db.sweepExpired with
      ticks := db.sweepExpired.ticks + db.sweepExpired.nextId } :=
    ⟨(Relation.ReflTransGen.single (.swept 0)).tail (.ticked 0 _), calm.quiet 0⟩
  exact swept.steps.trans (claimAll_steps _ _ _ _ _ (swept.calm calm) unique members returned)

end Calls

end PaymentWorkflow
