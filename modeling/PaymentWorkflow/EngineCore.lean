import PaymentWorkflow.SchemaCore

/-!
The functions of schema workflow and the two inbox functions they call, over the tables
of `SchemaCore.lean`. A raised exception is an `Except` error: the caller keeps the
database it had, as a rolled back (sub)transaction does.
-/

namespace PaymentWorkflow

inductive SqlError
  | processNotFound (processId : Nat)
  | unknownStep (stepKey : String)
  | unknownOutcome (outcome stepKey : Option String)
  | flowInvalid
  | flowInactive (flowName : String)
  | processInvalid
  | startConflict (businessKey : String)
  | signalInvalid (reason : String)
  | signalUnknown (signalType : String)
  | signalConflict (messageId : String)
  | workflowClaimInvalid (reason : String)
  | leaseStale (jobId : Nat) (owner : Option String) (leaseVersion : Option Int)
  | leaseInconsistent (jobId stepInstanceId : Nat)
  | reconcileInvalid
  | deliveryClaimInvalid (reason : String)
  | invalidRecordContext
  | uniqueViolation
  | notNullViolation
  | checkViolation
  | foreignKeyViolation
  | castFailure
  | recursionLimit
deriving DecidableEq

/-- What an action function returns to `api.invoke`; `meta` repeats the request. -/
inductive Envelope
  | ok (outcome : String) (result : Json)
  | error (code message : String)
deriving DecidableEq

/-! The patterns `^[a-z][a-z0-9_-]{0,62}$` and `^[a-z][a-z0-9_-]*(\.[a-z][a-z0-9_-]*)*$`. -/

def isNameChar (char : Char) : Bool :=
  char.isLower || char.isDigit || char = '_' || char = '-'

def isFlowName (name : String) : Bool :=
  match name.toList with
  | [] => false
  | first :: rest => first.isLower && rest.all isNameChar && rest.length ≤ 62

def signalTypeFrom : Bool → List Char → Bool
  | started, [] => started
  | false, char :: rest => char.isLower && signalTypeFrom true rest
  | true, char :: rest =>
      if char = '.' then signalTypeFrom false rest else isNameChar char && signalTypeFrom true rest

def isSignalType (name : String) : Bool := signalTypeFrom false name.toList

/-! Rows the engine inserts. -/

namespace Db

@[simps] def insertProcess (db : Db) (flowName : String) (flowVersion : Int) (businessKey : String)
    (data : Json) : Db :=
  { db with
    workflow := { db.workflow with
      processes := db.workflow.processes ++ [{
        id := db.nextId, flowName, flowVersion, businessKey, state := .created
        currentStepKey := none, data }] }
    nextId := db.nextId + 1 }

@[simps] def insertStep (db : Db) (processId : Nat) (definition : StepDefinition) : Db :=
  { db with
    workflow := { db.workflow with
      steps := db.workflow.steps ++ [{
        id := db.nextId, processId, stepKey := definition.stepKey
        stepType := definition.stepType, state := .pending, outcome := none
        enteredAt := db.now }] }
    nextId := db.nextId + 1
    ticks := db.ticks + 1 }

@[simps] def insertJob (db : Db) (processId stepInstanceId : Nat) : Db :=
  { db with
    workflow := { db.workflow with
      jobs := db.workflow.jobs ++ [{
        id := db.nextId, processId, stepInstanceId, executionId := db.nextId + 1
        state := .ready, leaseOwner := none, leaseVersion := 0, leaseUntil := none
        attemptCount := 0, nextAttemptAt := some db.now
        createdAt := db.clock (db.ticks + 1) }] }
    nextId := db.nextId + 2
    ticks := db.ticks + 2 }

@[simps] def insertAttempt (db : Db) (job : Job) (leaseVersion : Nat) : Db :=
  { db with
    workflow := { db.workflow with
      attempts := db.workflow.attempts ++ [{
        id := db.nextId, jobId := job.id, executionId := job.executionId, leaseVersion
        attemptNumber := job.attemptCount + 1, status := .running, outcome := none
        errorCode := none }] }
    nextId := db.nextId + 1 }

@[simps] def insertSignal (db : Db) (messageId : String) (processId : Nat)
    (signalType bodyHash : String) : Db :=
  { db with
    workflow := { db.workflow with
      signals := db.workflow.signals ++ [{
        messageId, processId, signalType, bodyHash, status := .accepted
        receivedAt := db.now }] }
    ticks := db.ticks + 1 }

@[simps] def markApplied (db : Db) (messageId : String) : Db :=
  { db with
    delivery := { db.delivery with
      inbox := Table.update (fun row => row.messageId = messageId)
        (fun row => { row with state := .applied }) db.delivery.inbox
      receipts := Table.update (fun row => row.messageId = messageId)
        (fun row => { row with appliedAt := some (db.clock (db.ticks + 1)) }) db.delivery.receipts }
    ticks := db.ticks + 2 }

/-- `workflow._enter_step` from its first INSERT up to the functions it performs last. -/
def placeStep (db : Db) (processId : Nat) (definition : StepDefinition) : Db :=
  let stepInstanceId := db.nextId
  let placed := (db.insertStep processId definition).updateProcess processId
    fun row => { row with currentStepKey := some definition.stepKey }
  match definition.stepType with
  | .automatic =>
      (((placed.updateStep stepInstanceId fun row => { row with state := .ready }).insertJob
        processId stepInstanceId).updateProcess processId
          fun row => { row with state := .running }).insertEvent
            processId (some stepInstanceId) .stepEntered
  | .waitSignal =>
      ((placed.updateStep stepInstanceId fun row => { row with state := .waiting }).updateProcess
        processId fun row => { row with state := .waitingSignal }).insertEvent
          processId (some stepInstanceId) .stepEntered
  | .manual =>
      ((placed.updateStep stepInstanceId fun row => { row with state := .waiting }).updateProcess
        processId fun row => { row with state := .waitingManual }).insertEvent
          processId (some stepInstanceId) .stepEntered
  | .endStep =>
      ((((placed.updateStep stepInstanceId fun row =>
        { row with state := .completed, outcome := definition.params.outcome }).updateProcess
          processId fun row => { row with state := .completed }).insertEvent
            processId (some stepInstanceId) .stepEntered).insertEvent
              processId (some stepInstanceId) .stepCompleted).insertEvent
                processId (some stepInstanceId) .processCompleted

/-- `workflow._apply_ready_signals` between its SELECT and its `_advance`. -/
def consumeSignal (db : Db) (processId stepInstanceId : Nat) (outcome : Option String)
    (signal : Signal) : Db :=
  (((db.updateSignal signal.messageId fun row => { row with status := .applied }).updateStep
    stepInstanceId fun row => { row with state := .completed, outcome }).insertEvent
      processId (some stepInstanceId) .signalApplied).insertEvent
        processId (some stepInstanceId) .stepCompleted

def readySignal? (db : Db) (processId : Nat) (signalType : Option String) : Option Signal :=
  Table.first
    (fun left right => left.receivedAt < right.receivedAt ∨
      (left.receivedAt = right.receivedAt ∧ left.messageId < right.messageId))
    (db.workflow.signals.filter fun row =>
      row.processId = processId ∧ some row.signalType = signalType ∧ row.status = .accepted)

def waitingStep? (db : Db) (processId : Nat) : Option StepInstance :=
  Table.first (fun left right => left.enteredAt > right.enteredAt)
    (db.workflow.steps.filter fun row =>
      row.processId = processId ∧ row.stepType = .waitSignal ∧ row.state = .waiting)

def receivedMessage? (db : Db) (processId : Nat) (signalType : Option String) :
    Option InboxRow :=
  Table.first
    (fun left right => left.receivedAt < right.receivedAt ∨
      (left.receivedAt = right.receivedAt ∧ left.messageId < right.messageId))
    (db.delivery.inbox.filter fun row =>
      row.processId = processId ∧ some row.signalType = signalType ∧ row.state = .received)

end Db

/-! `_enter_step` calls itself through `_advance`. Every function on that cycle takes the
inner `_enter_step` as an argument, and `enterStep` closes the recursion. -/

abbrev EnterStep := Db → Nat → String → Except SqlError Db

def advance (enter : EnterStep) (db : Db) (processId : Nat) (outcome : Option String) :
    Except SqlError Db :=
  match db.workflow.process? processId with
  | none => .error (.processNotFound processId)
  | some process =>
      if process.state = .completed ∨ process.state = .failed then .ok db
      else
        match db.config.transition? process.flowName process.flowVersion process.currentStepKey
            outcome with
        | none => .error (.unknownOutcome outcome process.currentStepKey)
        | some transition => enter db processId transition.toStepKey

def applyReadySignals (enter : EnterStep) (db : Db) (processId stepInstanceId : Nat)
    (params : StepParams) : Except SqlError Db :=
  match db.readySignal? processId params.signalType with
  | none => .ok db
  | some signal =>
      advance enter (db.consumeSignal processId stepInstanceId params.outcome signal) processId
        params.outcome

inductive SignalReply
  | accepted | duplicate
deriving DecidableEq

def sameSignal (existing : Signal) (processId : Nat) (signalType bodyHash : String) : Bool :=
  existing.processId = processId ∧ existing.signalType = signalType ∧ existing.bodyHash = bodyHash

def declaresSignal (db : Db) (process : Process) (signalType : String) : Bool :=
  db.config.stepDefinitions.any fun row =>
    row.flowName = process.flowName ∧ row.flowVersion = process.flowVersion ∧
      row.stepType = .waitSignal ∧ row.params.signalType = some signalType

def acceptSignalBody (enter : EnterStep) (db : Db) (processId : Nat)
    (signalType messageId : String) (payload : Json) : Except SqlError (Db × SignalReply) :=
  if ¬ isSignalType signalType then .error (.signalInvalid "invalid signal type")
  else if messageId = "" then .error (.signalInvalid "message id is required")
  else
    match db.workflow.process? processId with
    | none => .error (.processNotFound processId)
    | some process =>
        if ¬ declaresSignal db process signalType then .error (.signalUnknown signalType)
        else
          let bodyHash := db.digest payload.render
          match db.workflow.signal? messageId with
          | some existing =>
              if sameSignal existing processId signalType bodyHash then .ok (db, .duplicate)
              else .error (.signalConflict messageId)
          | none =>
              -- ux_signal_process_type_body
              if db.workflow.signals.any fun row => sameSignal row processId signalType bodyHash then
                .error .uniqueViolation
              else
                let stored := (db.insertSignal messageId processId signalType bodyHash).insertEvent
                  processId none .signalAccepted
                match stored.waitingStep? processId with
                | none => .ok (stored, .accepted)
                | some stepInstance =>
                    match db.config.stepDefinition? process.flowName process.flowVersion
                        stepInstance.stepKey with
                    | none => .ok (stored, .accepted)
                    | some definition =>
                        if definition.params.signalType = some signalType then do
                          let applied ← applyReadySignals enter stored processId stepInstance.id
                            definition.params
                          .ok (applied, .accepted)
                        else .ok (stored, .accepted)

def acceptSignal (enter : EnterStep) (db : Db) (processId : Nat) (signalType messageId : String)
    (payload : Json) : Except SqlError (Db × SignalReply) :=
  match acceptSignalBody enter db processId signalType messageId payload with
  | .error .uniqueViolation =>
      let bodyHash := db.digest payload.render
      match db.workflow.signal? messageId with
      | some existing =>
          if sameSignal existing processId signalType bodyHash then .ok (db, .duplicate)
          else .error (.signalConflict messageId)
      | none =>
          if db.workflow.signals.any fun row => sameSignal row processId signalType bodyHash then
            .ok (db, .duplicate)
          else .error (.signalConflict messageId)
  | result => result

def applyInboxForProcess (enter : EnterStep) (db : Db) (processId : Nat)
    (signalType : Option String) : Except SqlError Db :=
  match db.receivedMessage? processId signalType with
  | none => .ok db
  | some message => do
      let (accepted, _) ← acceptSignal enter db processId message.signalType message.messageId
        message.payload
      .ok (accepted.markApplied message.messageId)

def enterStepBody (enter : EnterStep) : EnterStep := fun db processId stepKey =>
  match db.workflow.process? processId with
  | none => .error (.processNotFound processId)
  | some process =>
      match db.config.stepDefinition? process.flowName process.flowVersion stepKey with
      | none => .error (.unknownStep stepKey)
      | some definition =>
          let placed := db.placeStep processId definition
          match definition.stepType with
          | .waitSignal => do
              let ready ← applyReadySignals enter placed processId db.nextId definition.params
              applyInboxForProcess enter ready processId definition.params.signalType
          | _ => .ok placed

/-- `_enter_step` with at most `depth` calls of itself inside one another. -/
def enterStep : Nat → EnterStep
  | 0 => fun _ _ _ => .error .recursionLimit
  | depth + 1 => enterStepBody (enterStep depth)

/-- Each nested call consumes a stored signal or one that an inbox message brings. -/
def recursionBound (db : Db) : Nat :=
  db.workflow.signals.length + 2 * db.delivery.inbox.length + 1

/-! The functions other roles may execute. -/

structure StartReply where
  processId : Nat
  flowName : String
  flowVersion : Int
  state : ProcessState
deriving DecidableEq

def Db.startedProcess? (db : Db) (flowName businessKey : String) : Option Process :=
  db.workflow.processes.find? fun row => row.flowName = flowName ∧ row.businessKey = businessKey

def Db.activeVersion? (db : Db) (flowName : String) : Option FlowVersion :=
  Table.first (fun left right => left.version > right.version)
    (db.config.flowVersions.filter fun row => row.flowName = flowName ∧ row.isActive)

def replyTo (process : Process) : StartReply :=
  ⟨process.id, process.flowName, process.flowVersion, process.state⟩

def startProcessBody (db : Db) (flowName businessKey : String) (data : Json) :
    Except SqlError (Db × StartReply) :=
  if ¬ isFlowName flowName then .error .flowInvalid
  else if businessKey = "" then .error .processInvalid
  else
    match db.startedProcess? flowName businessKey with
    | some existing =>
        if existing.data.same data then .ok (db, replyTo existing)
        else .error (.startConflict businessKey)
    | none =>
        match db.activeVersion? flowName with
        | none => .error (.flowInactive flowName)
        | some version => do
            let processId := db.nextId
            let inserted := (db.insertProcess flowName version.version businessKey data).insertEvent
              processId none .processStarted
            let entered ← enterStep (recursionBound inserted) inserted processId version.map.startStep
            match entered.workflow.process? processId with
            | some process => .ok (entered, replyTo process)
            | none => .error (.processNotFound processId)

def startProcess (db : Db) (flowName businessKey : String) (data : Json) :
    Except SqlError (Db × StartReply) :=
  match startProcessBody db flowName businessKey data with
  | .error .uniqueViolation =>
      match db.startedProcess? flowName businessKey with
      | some existing =>
          if existing.data.same data then .ok (db, replyTo existing)
          else .error (.startConflict businessKey)
      | none => .error (.startConflict businessKey)
  | result => result

def acceptSignalCall (db : Db) (processId : Nat) (signalType messageId : String) (payload : Json) :
    Except SqlError (Db × SignalReply) :=
  acceptSignal (enterStep (recursionBound db)) db processId signalType messageId payload

/-- One turn of the loop of `delivery.reconcile_inbox`: a failing message is skipped. -/
def reconcileOne (state : Db × Nat) (message : InboxRow) : Db × Nat :=
  match acceptSignal (enterStep (recursionBound state.1)) state.1 message.processId
      message.signalType message.messageId message.payload with
  | .ok (accepted, _) => (accepted.markApplied message.messageId, state.2 + 1)
  | .error _ => state

def Db.reconcilable (db : Db) (message : InboxRow) : Bool :=
  message.state = .received ∧
    db.workflow.processes.any fun process => process.id = message.processId ∧
      db.workflow.steps.any fun step => step.processId = message.processId ∧
        step.stepType = .waitSignal ∧ step.state = .waiting ∧
        (db.config.stepDefinition? process.flowName process.flowVersion step.stepKey).any
          fun definition => definition.params.signalType = some message.signalType

/-- The batch of one call; `locked` are the rows `SKIP LOCKED` passes over. -/
def Db.reconcileBatch (db : Db) (limit : Option Int) (locked : String → Bool) : List InboxRow :=
  Table.takeLimit limit
    (((db.delivery.inbox.filter db.reconcilable).insertionSort
      (fun left right => left.receivedAt < right.receivedAt ∨
        (left.receivedAt = right.receivedAt ∧ left.messageId ≤ right.messageId))).filter
      fun row => !locked row.messageId)

def reconcileInbox (db : Db) (limit : Option Int) (locked : String → Bool) :
    Except SqlError (Db × Nat) :=
  if limit.any fun count => count < 1 ∨ count > 1000 then .error .reconcileInvalid
  else .ok ((db.reconcileBatch limit locked).foldl reconcileOne (db, 0))

/-! Leasing of jobs. -/

structure ClaimedJob where
  jobId : Nat
  processId : Nat
  stepInstanceId : Nat
  executionId : Nat
  leaseVersion : Nat
  attemptId : Nat
  attemptNumber : Nat
  owner : String
  flowName : String
  flowVersion : Int
  stepKey : String
  stepType : StepType
  processData : Json
  task : FlowTask
  outcomes : List String
  requestSchema : Json
  responseSchema : Json
deriving DecidableEq

def Job.expiredAt (job : Job) (reading : Time) : Bool :=
  job.state = .leased ∧ job.leaseUntil.any (· < reading)

def Job.claimableAt (job : Job) (reading : Time) : Bool :=
  ((job.state = .ready ∨ job.state = .retryWait) ∧ job.nextAttemptAt.any (· ≤ reading)) ∨
    job.expiredAt reading

/-- The first UPDATE of `claim_jobs`. Every row evaluates `clock_timestamp()` anew: the row
with a given id takes the reading that many ticks ahead. -/
@[simps] def Db.sweepExpired (db : Db) : Db :=
  { db with
    workflow := { db.workflow with
      attempts := Table.update
        (fun attempt => attempt.status = .running ∧ db.workflow.jobs.any fun job =>
          job.id = attempt.jobId ∧ job.expiredAt (db.clock (db.ticks + attempt.id)))
        (fun attempt => { attempt with status := .stale }) db.workflow.attempts }
    ticks := db.ticks + db.nextId }

def Db.pickJobs (db : Db) (batch : Option Int) (locked : Nat → Bool) : List Job :=
  Table.takeLimit batch
    (((db.workflow.jobs.filter fun job => job.claimableAt (db.clock (db.ticks + job.id))).insertionSort
      (fun left right => left.createdAt < right.createdAt ∨
        (left.createdAt = right.createdAt ∧ left.id ≤ right.id))).filter
      fun job => !locked job.id)

def Db.leaseJob (db : Db) (owner : String) (leaseMs : Option Int) (job : Job) : Db :=
  ((db.tick.updateStep job.stepInstanceId fun row => { row with state := .running }).updateJob
    job.id fun row => { row with
      state := .leased, leaseOwner := some owner, leaseVersion := job.leaseVersion + 1
      leaseUntil := leaseMs.map fun count => db.now + milliseconds count
      attemptCount := job.attemptCount + 1, nextAttemptAt := none }).insertAttempt job (job.leaseVersion + 1)

def leaseJob (db : Db) (owner : String) (leaseMs : Option Int) (job : Job) : Except SqlError Db :=
  let leased := db.leaseJob owner leaseMs job
  if (leased.workflow.step? job.stepInstanceId).any (fun step => step.state = .running) then
    .ok leased
  else .error (.leaseInconsistent job.id job.stepInstanceId)

def Db.disableJob (db : Db) (job : Job) (attemptId : Nat) : Db :=
  ((((db.updateAttempts (fun row => row.id = attemptId) fun row =>
    { row with status := .failed, errorCode := some "workflow.action_disabled" }).updateJob job.id
      fun row => { row with state := .dead, leaseOwner := none, leaseUntil := none }).updateStep
        job.stepInstanceId fun row => { row with state := .failed }).updateProcess job.processId
          fun row => { row with state := .failed }).insertEvent job.processId
            (some job.stepInstanceId) .taskFailed

def claimOne (owner : String) (leaseMs : Option Int) (state : Db × List ClaimedJob) (job : Job) :
    Except SqlError (Db × List ClaimedJob) := do
  let attemptId := state.1.nextId
  let leased ← leaseJob state.1 owner leaseMs job
  match leased.workflow.process? job.processId, leased.workflow.step? job.stepInstanceId with
  | some process, some step =>
      match leased.config.task? process.flowName process.flowVersion step.stepKey with
      | none => .ok (leased, state.2)
      | some definition =>
          let task := definition.task
          match leased.config.action? task.module task.action task.actionVersion with
          | some action =>
              if action.enabled then
                .ok (leased, state.2 ++ [{
                  jobId := job.id, processId := job.processId
                  stepInstanceId := job.stepInstanceId, executionId := job.executionId
                  leaseVersion := job.leaseVersion + 1, attemptId
                  attemptNumber := job.attemptCount + 1, owner
                  flowName := process.flowName, flowVersion := process.flowVersion
                  stepKey := step.stepKey, stepType := step.stepType
                  processData := process.data, task, outcomes := action.outcomes
                  requestSchema := action.requestSchema
                  responseSchema := action.responseSchema }])
              else .ok (leased.disableJob job attemptId, state.2)
          | none => .ok (leased.disableJob job attemptId, state.2)
  | _, _ => .ok (leased, state.2)

def claimJobs (db : Db) (owner : String) (batch leaseMs : Option Int) (locked : Nat → Bool) :
    Except SqlError (Db × List ClaimedJob) :=
  if owner = "" then .error (.workflowClaimInvalid "owner is required")
  -- a NULL passes both range checks
  else if batch.any fun count => count < 1 ∨ count > 100 then
    .error (.workflowClaimInvalid "invalid batch size")
  else if leaseMs.any fun count => count < 100 ∨ count > 600000 then
    .error (.workflowClaimInvalid "invalid lease duration")
  else
    let swept := db.sweepExpired
    let picked := swept.pickJobs batch locked
    picked.foldlM (claimOne owner leaseMs)
      ({ swept with ticks := swept.ticks + swept.nextId }, [])

/-- The guard of `finish_job` and `fail_job`. A NULL lease version compares as unknown,
which the IF takes for false. -/
def Job.leaseIsStale (job : Job) (owner : Option String) (leaseVersion : Option Int) : Bool :=
  job.state ≠ .leased ∨ job.leaseOwner ≠ owner ∨
    leaseVersion.any fun version => (job.leaseVersion : Int) ≠ version

def Attempt.runsUnder (attempt : Attempt) (jobId : Nat) (leaseVersion : Option Int) : Bool :=
  attempt.jobId = jobId ∧ leaseVersion = some (attempt.leaseVersion : Int) ∧
    attempt.status = .running

def Db.completeJob (db : Db) (job : Job) (leaseVersion : Option Int) (outcome : Option String) : Db :=
  (((db.updateAttempts (fun row => row.runsUnder job.id leaseVersion) fun row =>
    { row with status := .succeeded, outcome }).updateJob job.id fun row =>
      { row with state := .succeeded, leaseUntil := none }).updateStep job.stepInstanceId
        fun row => { row with state := .completed, outcome }).insertEvent job.processId
          (some job.stepInstanceId) .stepCompleted

def finishJob (db : Db) (jobId : Nat) (owner : Option String) (leaseVersion : Option Int)
    (outcome : Option String) : Except SqlError (Db × Option ProcessState) :=
  match db.workflow.job? jobId with
  | none => .error (.leaseStale jobId owner leaseVersion)
  | some job =>
      if job.leaseIsStale owner leaseVersion then .error (.leaseStale jobId owner leaseVersion)
      else
        match db.workflow.step? job.stepInstanceId, db.workflow.process? job.processId with
        | some step, some process =>
            match db.config.transition? process.flowName process.flowVersion (some step.stepKey)
                outcome with
            | none => .error (.unknownOutcome outcome (some step.stepKey))
            | some _ => do
                let completed := db.completeJob job leaseVersion outcome
                let advanced ← advance (enterStep (recursionBound completed)) completed
                  job.processId outcome
                .ok (advanced, (advanced.workflow.process? job.processId).map Process.state)
        | _, _ => .error (.unknownOutcome outcome none)

inductive FailReply
  | scheduled (nextAttemptAt : Option Time)
  | dead
deriving DecidableEq

/-- `(retry -> 'delays_ms') -> (attempt_count - 1)`: a negative index counts from the end. -/
def Retry.delayAt (retry : Retry) (attemptCount : Nat) : Option Int :=
  if attemptCount = 0 then retry.delaysMs.getLast? else retry.delaysMs[attemptCount - 1]?

def Db.retryOf (db : Db) (job : Job) : Option Int × Option Int :=
  match db.workflow.step? job.stepInstanceId, db.workflow.process? job.processId with
  | some step, some process =>
      match db.config.task? process.flowName process.flowVersion step.stepKey with
      | some definition =>
          (definition.task.retry.maxAttempts, definition.task.retry.delayAt job.attemptCount)
      | none => (some 1, some 0)
  | _, _ => (some 1, some 0)

def Db.failAttempt (db : Db) (jobId : Nat) (leaseVersion : Option Int) (errorCode : Option String) :
    Db :=
  db.updateAttempts (fun row => row.runsUnder jobId leaseVersion) fun row =>
    { row with status := .failed, errorCode }

@[simps!] def Db.scheduleRetry (db : Db) (jobId : Nat) (nextAttemptAt : Option Time) : Db :=
  (db.updateJob jobId fun row => { row with
    state := .retryWait, leaseOwner := none, leaseUntil := none, nextAttemptAt }).tick

def Db.buryJob (db : Db) (job : Job) : Db :=
  (((db.updateJob job.id fun row => { row with
    state := .dead, leaseOwner := none, leaseUntil := none }).updateStep job.stepInstanceId
      fun row => { row with state := .failed }).updateProcess job.processId
        fun row => { row with state := .failed }).insertEvent job.processId
          (some job.stepInstanceId) .taskFailed

def failJob (db : Db) (jobId : Nat) (owner : Option String) (leaseVersion : Option Int)
    (errorCode : Option String) (retryable : Bool) : Except SqlError (Db × FailReply) :=
  match db.workflow.job? jobId with
  | none => .error (.leaseStale jobId owner leaseVersion)
  | some job =>
      if job.leaseIsStale owner leaseVersion then .error (.leaseStale jobId owner leaseVersion)
      else
        let failed := db.failAttempt jobId leaseVersion errorCode
        let (maxAttempts, delay) := db.retryOf job
        if retryable ∧ maxAttempts.any ((job.attemptCount : Int) < ·) then
          let nextAttemptAt := delay.map fun count => db.now + milliseconds count
          .ok (failed.scheduleRetry jobId nextAttemptAt, .scheduled nextAttemptAt)
        else .ok (failed.buryJob job, .dead)

/-! `workflow.manual_v1`. -/

def DecisionOutcome.ofText? : String → Option DecisionOutcome
  | "APPROVED" => some .approved
  | "REJECTED" => some .rejected
  | _ => none

@[simps] def Db.insertDecision (db : Db) (processId stepInstanceId : Nat) (source : DecisionSource)
    (principal reasonHash : Option String) (outcome : DecisionOutcome)
    (ruleVersion : Option String) : Db :=
  { db with
    payment := { db.payment with
      decisions := db.payment.decisions ++ [{
        id := db.nextId, processId, stepInstanceId, source, principal, reasonHash, outcome
        ruleVersion }] }
    nextId := db.nextId + 1 }

def Db.completeManual (db : Db) (processId stepInstanceId : Nat) (decision : String) : Db :=
  ((db.updateStep stepInstanceId fun row =>
    { row with state := .completed, outcome := some decision }).insertEvent processId
      (some stepInstanceId) .manualDecision).insertEvent processId (some stepInstanceId)
        .stepCompleted

/-- A uuid argument read in a DECLARE section: NULL stays NULL, a bad text raises. -/
def uuidArgument (payload : Json) (key : String) : Except SqlError (Option Nat) :=
  match payload.text? key with
  | none => .ok none
  | some content =>
      match castUuid content with
      | none => .error .castFailure
      | some id => .ok (some id)

def manualBody (db : Db) (principal : Option String) (processId stepInstanceId : Option Nat)
    (decision reason : Option String) : Except SqlError (Db × Envelope) :=
  match processId.bind db.workflow.process? with
  | none => .ok (db, .error "workflow.process_not_found" "process not found")
  | some process =>
      match stepInstanceId.bind db.workflow.step? with
      | none => .ok (db, .error "workflow.decision_conflict" "step is not awaiting a decision")
      | some step =>
          if step.processId ≠ process.id ∨ step.stepType ≠ .manual ∨ step.state ≠ .waiting then
            .ok (db, .error "workflow.decision_conflict" "step is not awaiting a decision")
          else
            match decision with
            | none => .error .notNullViolation
            | some decisionText =>
                match DecisionOutcome.ofText? decisionText with
                | none => .error .checkViolation
                | some outcome =>
                    if db.payment.decisions.any fun row => row.stepInstanceId = step.id then
                      .error .uniqueViolation
                    else do
                      let decided := (db.insertDecision process.id step.id .manual principal
                        (reason.map db.digest) outcome none).completeManual process.id step.id
                          decisionText
                      let advanced ← advance (enterStep (recursionBound decided)) decided process.id
                        (some decisionText)
                      .ok (advanced, .ok decisionText (.object [
                        ("decisionId", .text (uuidText db.nextId)),
                        ("processId", .text (uuidText process.id)),
                        ("stepInstanceId", .text (uuidText step.id)),
                        ("decision", .text decisionText),
                        ("source", .text "MANUAL"),
                        ("principal", (principal.map Json.text).getD .null)]))

def manualV1 (db : Db) (principal : Option String) (payload : Json) :
    Except SqlError (Db × Envelope) := do
  let processId ← uuidArgument payload "processId"
  let stepInstanceId ← uuidArgument payload "stepInstanceId"
  match manualBody db principal processId stepInstanceId (payload.text? "decision")
      (payload.text? "reason") with
  | .error .uniqueViolation =>
      .ok (db, .error "workflow.decision_conflict" "decision is already recorded")
  | result => result

end PaymentWorkflow
