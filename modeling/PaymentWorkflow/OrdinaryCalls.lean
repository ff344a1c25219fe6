import PaymentWorkflow.TakingRuns
import PaymentWorkflow.WorldProofs
import PaymentWorkflow.OperationProofs

/-!
Runs in which the internal actions and the ends of jobs are left to the workers: what a call of
anyone else can do to the processes and to the jobs.
-/

namespace PaymentWorkflow

def internalScope : String := "payment:internal"

/-- A call that leaves internal actions, started processes and finished jobs to others. -/
def Call.ordinary : Call → Bool
  | .startProcess .. | .finishJob .. => false
  | .invoke _ _ _ context _ => ¬ context.scopes.contains internalScope
  | _ => true

/-! Calls that start no process. -/

def Db.SameProcesses (db later : Db) : Prop :=
  later.workflow.processes.map Process.id = db.workflow.processes.map Process.id

section SameProcesses

variable {first second third db later : Db}

theorem Db.SameProcesses.of_eq (workflow : later.workflow = db.workflow) :
    db.SameProcesses later := by
  rw [Db.SameProcesses, workflow]

theorem Db.SameProcesses.trans (left : first.SameProcesses second)
    (right : second.SameProcesses third) : first.SameProcesses third :=
  Eq.trans right left

theorem placeStep_sameProcesses (db : Db) (processId : Nat) (definition : StepDefinition) :
    db.SameProcesses (db.placeStep processId definition) := by
  rw [Db.SameProcesses, Db.placeStep_processes, Table.map_update]
  exact fun _ => rfl

theorem sameProcesses_written : Written Db.SameProcesses where
  refl _ := rfl
  trans := .trans
  placed := placeStep_sameProcesses
  consumed _ _ _ _ _ := rfl
  stored _ _ _ _ _ := rfl
  applied _ _ := rfl

theorem enterStep_sameProcesses (depth : Nat) : Relates Db.SameProcesses (enterStep depth) :=
  sameProcesses_written.enterStep depth

theorem reconcileBatch_sameProcesses (batch : List InboxRow) :
    ∀ state : Db × Nat, state.1.SameProcesses (batch.foldl reconcileOne state).1 := by
  induction batch with
  | nil => exact fun _ => rfl
  | cons message rest ih =>
      intro state
      refine Db.SameProcesses.trans ?_ (ih (reconcileOne state message))
      simp only [reconcileOne]
      split
      · rename_i accepted
        have same := sameProcesses_written.acceptSignal (enterStep_sameProcesses _) accepted
        exact same
      · rfl

theorem reconcileInbox_sameProcesses {limit : Option Int} {locked : String → Bool} {count : Nat}
    (returned : reconcileInbox db limit locked = .ok (later, count)) : db.SameProcesses later := by
  simp only [reconcileInbox] at returned
  split at returned
  · cases returned
  · have same := reconcileBatch_sameProcesses (db.reconcileBatch limit locked) (db, 0)
    rw [show (db.reconcileBatch limit locked).foldl reconcileOne (db, 0) = (later, count) from
      Except.ok.inj returned] at same
    exact same

theorem finishJob_sameProcesses {jobId : Nat} {owner outcome : Option String}
    {leaseVersion : Option Int} {reply : Option ProcessState}
    (returned : finishJob db jobId owner leaseVersion outcome = .ok (later, reply)) :
    db.SameProcesses later := by
  simp only [finishJob] at returned
  split at returned
  · cases returned
  split at returned
  · cases returned
  split at returned
  · split at returned
    · cases returned
    obtain ⟨advanced, first, rest⟩ := Runs.bind_eq_ok.mp returned
    cases rest
    have same := sameProcesses_written.advance (enterStep_sameProcesses _) first
    exact same
  · cases returned

theorem buryJob_sameProcesses (db : Db) (job : Job) : db.SameProcesses (db.buryJob job) := by
  show (Table.update _ _ db.workflow.processes).map Process.id = _
  rw [Table.map_update]
  exact fun _ => rfl

theorem failJob_sameProcesses {jobId : Nat} {owner errorCode : Option String}
    {leaseVersion : Option Int} {retryable : Bool} {reply : FailReply}
    (returned : failJob db jobId owner leaseVersion errorCode retryable = .ok (later, reply)) :
    db.SameProcesses later := by
  simp only [failJob] at returned
  split at returned
  · cases returned
  split at returned
  · cases returned
  split at returned
  · cases returned
    rfl
  · cases returned
    exact buryJob_sameProcesses (db.failAttempt _ _ _) _

theorem claimOne_sameProcesses {owner : String} {leaseMs : Option Int} {job : Job}
    {claimed handed : List ClaimedJob}
    (returned : claimOne owner leaseMs (db, claimed) job = .ok (later, handed)) :
    db.SameProcesses later := by
  obtain ⟨leased, lease, rest⟩ := Runs.bind_eq_ok.mp returned
  have same : db.SameProcesses leased := by
    simp only [leaseJob] at lease
    split at lease
    · cases lease
      rfl
    · cases lease
  have disabled : ∀ attemptId, db.SameProcesses (leased.disableJob job attemptId) :=
    fun attemptId => same.trans (buryJob_sameProcesses (leased.updateAttempts _ _) job)
  split at rest
  · split at rest
    · cases rest
      exact same
    · simp only at rest
      split at rest
      · split at rest
        · cases rest
          exact same
        · cases rest
          exact disabled _
      · cases rest
        exact disabled _
  · cases rest
    exact same

theorem claimAll_sameProcesses {owner : String} {leaseMs : Option Int} :
    ∀ (jobs : List Job) (db later : Db) (claimed handed : List ClaimedJob),
      jobs.foldlM (claimOne owner leaseMs) (db, claimed) = .ok (later, handed) →
        db.SameProcesses later := by
  intro jobs
  induction jobs with
  | nil =>
      intro db later claimed handed returned
      cases returned
      rfl
  | cons job rest ih =>
      intro db later claimed handed returned
      simp only [List.foldlM_cons] at returned
      obtain ⟨⟨next, between⟩, first, continued⟩ := Runs.bind_eq_ok.mp returned
      exact (claimOne_sameProcesses first).trans (ih next later between handed continued)

theorem claimJobs_sameProcesses {owner : String} {batch leaseMs : Option Int} {locked : Nat → Bool}
    {claimed : List ClaimedJob}
    (returned : claimJobs db owner batch leaseMs locked = .ok (later, claimed)) :
    db.SameProcesses later := by
  simp only [claimJobs] at returned
  split at returned
  · cases returned
  split at returned
  · cases returned
  split at returned
  · cases returned
  · exact claimAll_sameProcesses _ { db.sweepExpired with
      ticks := db.sweepExpired.ticks + db.sweepExpired.nextId } _ _ _ returned

theorem manualV1_sameProcesses {principal : Option String} {payload : Json} {envelope : Envelope}
    (returned : manualV1 db principal payload = .ok (later, envelope)) : db.SameProcesses later := by
  obtain ⟨processId, _, rest⟩ := Runs.bind_eq_ok.mp returned
  obtain ⟨stepInstanceId, _, body⟩ := Runs.bind_eq_ok.mp rest
  split at body
  · cases body
    rfl
  simp only [manualBody] at body
  split at body
  · cases body
    rfl
  split at body
  · cases body
    rfl
  split at body
  · cases body
    rfl
  split at body
  · cases body
  split at body
  · cases body
  split at body
  · cases body
  obtain ⟨advanced, first, last⟩ := Runs.bind_eq_ok.mp body
  cases last
  have same := sameProcesses_written.advance (enterStep_sameProcesses _) first
  exact same

theorem startProcess_processes {flowName businessKey : String} {data : Json} {reply : StartReply}
    (returned : startProcess db flowName businessKey data = .ok (later, reply)) :
    db.SameProcesses later ∨ later.workflow.processes.map Process.id =
      db.workflow.processes.map Process.id ++ [reply.processId] := by
  simp only [startProcess] at returned
  split at returned
  · split at returned
    · split at returned
      · cases returned
        exact .inl rfl
      · cases returned
    · cases returned
  simp only [startProcessBody] at returned
  split at returned
  · cases returned
  split at returned
  · cases returned
  split at returned
  · split at returned
    · cases returned
      exact .inl rfl
    · cases returned
  split at returned
  · cases returned
  obtain ⟨entered, first, rest⟩ := Runs.bind_eq_ok.mp returned
  split at rest
  · rename_i process found
    cases rest
    have same := enterStep_sameProcesses _ _ _ _ _ first
    refine .inr (Eq.trans same ?_)
    show (db.workflow.processes ++ [_]).map Process.id = _
    rw [List.map_append, show (replyTo process).processId = db.nextId from
      (Table.lookup_mem found).2]
    rfl
  · cases rest

end SameProcesses

/-! Calls of clients without the internal scope. -/

def Target.closes : Target → Bool
  | .approveV1 | .completeV1 | .rejectV1 => true
  | _ => false

section Unworked

variable {db later : Db}

theorem Closes.closes {operation : Operation} {target : Target} {status : OperationStatus}
    {eventType : OperationEventType} (closes : Closes db operation target status eventType) :
    target.closes = true := by
  cases closes <;> rfl

theorem CloseMove.closes {target : Target} {operation : Operation}
    (move : CloseMove target operation db later) : target.closes = true := by
  cases move with
  | closed _ _ closes => exact closes.closes

theorem catalogRow_mem {config : Config} {module action : String} {version : Option Int}
    {row : ActionRow} (found : catalogRow config module action version = .ok row) :
    row ∈ config.actionCatalog := by
  simp only [catalogRow] at found
  split at found
  · split at found
    · cases found
    · rename_i located
      split at found
      · cases found
        exact List.mem_of_find?_eq_some located
      · cases found
  · split at found
    · cases found
    · rename_i located
      cases found
      exact List.mem_of_find?_eq_some located

def Config.Guarded (config : Config) : Prop :=
  ∀ row ∈ config.actionCatalog,
    (target? row.targetSchema row.targetFunction).any Target.closes = true →
      internalScope ∈ row.requiredPolicy

instance (config : Config) : Decidable config.Guarded :=
  inferInstanceAs (Decidable (∀ row ∈ config.actionCatalog, _))

theorem invoked?_guarded (guarded : db.config.Guarded) {module action : String}
    {version : Option Int} {context : Context} {payload : Json} {target : Target}
    {operation : Operation}
    (ran : invoked? db module action version context payload = some (target, operation))
    (closes : target.closes = true) : context.scopes.contains internalScope = true := by
  simp only [invoked?] at ran
  split at ran
  · cases ran
  rename_i row found
  split at ran
  · cases ran
  rename_i allowed
  obtain ⟨known, located, same⟩ := Option.bind_eq_some_iff.mp ran
  obtain ⟨_, _, pair⟩ := Option.map_eq_some_iff.mp same
  cases pair
  have asks := guarded row (catalogRow_mem found) (by simp [located, closes])
  rw [not_not, List.all_eq_true] at allowed
  exact allowed internalScope asks

def Db.PinsStarted (db later : Db) : Prop :=
  ∀ process ∈ later.workflow.processes,
    (∃ before ∈ db.workflow.processes, before.id = process.id) ∨
      ∃ operation ∈ later.payment.operations, operation.processId = some process.id

structure Db.Unworked (db later : Db) : Prop where
  moves : OtherMoves db later
  succeeded : ∀ jobId, later.succeeded jobId = true → db.succeeded jobId = true
  started : db.PinsStarted later

theorem Db.Steady.jobKeys (steady : db.Steady) : JobKeys db :=
  ⟨steady.calm.sound.rows.jobIds, steady.calm.sound.rows.jobBound⟩

theorem JobsAdded.succeeded (added : JobsAdded db later) (keys : JobKeys db) (jobId : Nat) :
    later.succeeded jobId = true → db.succeeded jobId = true := by
  have stays : Stays (fun _ => false) db later := added.stays keys
  rw [stays.succeeded jobId]
  exact id

theorem JobsChanged.succeeded {touched : Nat → Prop} (changed : JobsChanged touched db later)
    (jobId : Nat) : later.succeeded jobId = true → db.succeeded jobId = true := by
  rw [Db.succeeded_iff, Db.succeeded_iff]
  rintro ⟨row, member, same, done⟩
  rcases changed.rows row member with ⟨old, _⟩ | ⟨_, notDone⟩
  · exact ⟨row, old, same, done⟩
  · exact absurd done notDone

theorem Db.SameProcesses.pinsStarted (same : db.SameProcesses later) : db.PinsStarted later := by
  intro process member
  have key := List.mem_map_of_mem (f := Process.id) member
  rw [same] at key
  exact .inl (List.mem_map.mp key)

theorem submitV1_pinsStarted (steady : db.Steady) {payload : Json} {envelope : Envelope}
    (returned : submitV1 db payload = .ok (later, envelope)) : db.PinsStarted later := by
  rcases withOperation_cases returned with ⟨rfl, _⟩ | ⟨operation, _, member, body⟩
  · exact Db.SameProcesses.pinsStarted rfl
  simp only [submitOperation] at body
  split at body
  · cases body
    exact Db.SameProcesses.pinsStarted rfl
  split at body
  · cases body
    exact Db.SameProcesses.pinsStarted rfl
  rename_i created
  rw [ne_eq, not_not] at created
  split at body
  · cases body
    exact Db.SameProcesses.pinsStarted rfl
  obtain ⟨⟨started, reply⟩, first, rest⟩ := Runs.bind_eq_ok.mp body
  obtain ⟨submitted, written, last⟩ := Runs.bind_eq_ok.mp rest
  cases last
  have reaches := startProcess_reaches steady.calm first
  have ledger := steady.ledger.of_engine reaches.moves
  have inside : operation ∈ started.payment.operations := by
    rw [reaches.moves.operations_eq.1]
    exact member
  have same := setStatus_workflow written
  rcases startProcess_processes first with none | one
  · exact Db.SameProcesses.pinsStarted (none.trans (.of_eq same))
  intro process present
  have key := List.mem_map_of_mem (f := Process.id) present
  rw [same, one] at key
  rcases List.mem_append.mp key with old | new
  · exact .inl (List.mem_map.mp old)
  refine .inr ?_
  simp only [setStatus, Payment.operation?, Table.lookup_of_mem ledger.operationIds inside]
    at written
  split at written
  · rename_i processing
    rw [created] at processing
    cases processing
  split at written
  · cases written
  cases written
  refine ⟨{ operation with status := .processing, processId := some reply.processId }, ?_, ?_⟩
  · exact Table.mem_update.mpr ⟨operation, inside, by simp⟩
  · exact congrArg some (List.mem_singleton.mp new).symm

theorem OutsideMoves.pinsStarted (moves : OutsideMoves db later) : db.PinsStarted later :=
  Db.SameProcesses.pinsStarted (.of_eq moves.workflow_eq)

theorem runTarget_pinsStarted (steady : db.Steady) {target : Target} {context : Context}
    {payload : Json} {envelope : Envelope} (leaves : target.closes = false)
    (returned : runTarget target db context payload = .ok (later, envelope)) :
    db.PinsStarted later := by
  cases target with
  | requestV1 => exact (requestV1_moves returned).pinsStarted
  | getV1 => exact (reading_moves returned).pinsStarted
  | operationEventsV1 => exact (reading_moves returned).pinsStarted
  | submitV1 => exact submitV1_pinsStarted steady returned
  | validateV1 => exact (validateV1_moves returned).pinsStarted
  | prepareExternalV1 => exact (prepareExternalV1_moves returned).pinsStarted
  | applyReceiptV1 => exact (applyReceiptV1_moves returned).pinsStarted
  | checkLimitV1 => exact (checkLimitV1_moves returned).pinsStarted
  | receiptAcceptV1 => exact (receiptAcceptV1_moves returned).pinsStarted
  | manualV1 => exact (manualV1_sameProcesses returned).pinsStarted
  | approveV1 | completeV1 | rejectV1 => cases leaves

theorem recordDispatch_same {module action : String} {version : Int} {context : Context}
    {envelope : Envelope}
    (returned : recordDispatch db module action version context envelope = .ok later) :
    later.workflow = db.workflow ∧ later.payment = db.payment := by
  simp only [recordDispatch] at returned
  repeat' split at returned
  all_goals first
    | cases returned; exact ⟨rfl, rfl⟩
    | cases returned

theorem invoke_pinsStarted (steady : db.Steady) (guarded : db.config.Guarded)
    {module action : String} {version : Option Int} {context : Context} {payload : Json}
    {envelope : Envelope} (ordinary : context.scopes.contains internalScope = false)
    (returned : invoke db module action version context payload = .ok (later, envelope)) :
    db.PinsStarted later := by
  rcases invoke_cases returned with
    ⟨rfl, _⟩ | ⟨row, target, changed, found, located, allowed, ran, recorded⟩
  · exact Db.SameProcesses.pinsStarted rfl
  have leaves : target.closes = false := by
    rw [← Bool.not_eq_true]
    intro closes
    have asks := guarded row (catalogRow_mem found) (by simp [located, closes])
    rw [List.all_eq_true] at allowed
    rw [allowed internalScope asks] at ordinary
    cases ordinary
  obtain ⟨workflow, payment⟩ := recordDispatch_same recorded
  have started := runTarget_pinsStarted steady leaves ran
  rw [Db.PinsStarted, workflow, payment]
  exact started

/-- An ordinary call that is no worker's leaves both the closing and the finishing to them. -/
theorem execDb_unworked (steady : db.Steady) (guarded : db.config.Guarded) {call : Call}
    (ordinary : call.ordinary = true) (notWork : ∀ claimed, call ≠ .work claimed)
    (returned : execDb db call = some later) : db.Unworked later := by
  have moves : OtherMoves db later := by
    cases execDb_moves steady returned with
    | other moves => exact moves
    | closing ran close =>
        cases call with
        | invoke =>
            have held := invoked?_guarded guarded ran close.closes
            simp [Call.ordinary] at ordinary
            simp [ordinary] at held
        | work claimed => exact absurd rfl (notWork claimed)
        | _ => cases ran
  have foreign : call.isForeign = true →
      ∀ jobId, later.succeeded jobId = true → db.succeeded jobId = true :=
    fun foreign jobId => (foreign_added foreign returned).succeeded steady.jobKeys jobId
  cases call with
  | startProcess | finishJob => cases ordinary
  | work claimed => exact absurd rfl (notWork claimed)
  | acceptSignal processId signalType messageId payload =>
      obtain ⟨reply, ok⟩ := returned_db returned
      have same := sameProcesses_written.acceptSignal (enterStep_sameProcesses _) ok
      exact ⟨moves, foreign rfl, same.pinsStarted⟩
  | reconcileInbox limit locked =>
      obtain ⟨count, ok⟩ := returned_db returned
      exact ⟨moves, foreign rfl, (reconcileInbox_sameProcesses ok).pinsStarted⟩
  | claimJobs owner batch leaseMs locked =>
      obtain ⟨claimed, ok⟩ := returned_db returned
      exact ⟨moves, (claimJobs_jobs steady.jobKeys.unique ok).succeeded,
        (claimJobs_sameProcesses ok).pinsStarted⟩
  | failJob jobId owner leaseVersion errorCode retryable =>
      obtain ⟨reply, ok⟩ := returned_db returned
      exact ⟨moves, (failJob_jobs ok).2.succeeded, (failJob_sameProcesses ok).pinsStarted⟩
  | invoke module action version context payload =>
      obtain ⟨envelope, ok⟩ := returned_db returned
      refine ⟨moves, foreign rfl, invoke_pinsStarted steady guarded ?_ ok⟩
      simpa [Call.ordinary] using ordinary
  | claimOutbox owner limit locked =>
      obtain ⟨claims, ok⟩ := returned_db returned
      exact ⟨moves, foreign rfl,
        (claimOutbox_moves steady.ledger.outboxIds ok).pinsStarted⟩
  | succeedOutbox outboxId owner leaseVersion providerPaymentId =>
      cases returned
      exact ⟨moves, foreign rfl, succeedOutbox_moves.pinsStarted⟩
  | failOutbox outboxId owner leaseVersion errorCode =>
      cases returned
      exact ⟨moves, foreign rfl, failOutbox_moves.pinsStarted⟩

end Unworked

end PaymentWorkflow
