import PaymentWorkflow.SystemCalls

/-!
What a call takes: the messages it hands to `accept_signal` and marks APPLIED, and the signals
that complete a wait step, each with the tables of that moment. Only calls that return are asked.
-/

namespace PaymentWorkflow

inductive Taking
  | message (db : Db) (row : InboxRow)
  | signal (db : Db) (row : Signal)

def Db.repeats (db : Db) (message : InboxRow) : Bool :=
  db.delivery.inbox.any fun row => row.messageId = message.messageId ∧ row.state = .applied

def Db.sole (db : Db) (message : InboxRow) : Bool :=
  db.workflow.signals.all fun row => row.messageId = message.messageId ∨
    ¬ sameSignal row message.processId message.signalType (db.digest message.payload.render)

/-- The process waits for the type of the message, and no other signal stands in for it. -/
def Taking.fits : Taking → Bool
  | .message db row => db.repeats row || db.reconcilable row && db.sole row
  | .signal _ _ => true

/-! The functions on the cycle through `_enter_step`, each with what it takes. -/

abbrev EntryTakings := Db → Nat → String → List Taking

def advanceTakings (entering : EntryTakings) (db : Db) (processId : Nat) (outcome : Option String) :
    List Taking :=
  match db.workflow.process? processId with
  | none => []
  | some process =>
      if process.state = .completed ∨ process.state = .failed then []
      else
        match db.config.transition? process.flowName process.flowVersion process.currentStepKey
            outcome with
        | none => []
        | some transition => entering db processId transition.toStepKey

def readySignalsTakings (entering : EntryTakings) (db : Db) (processId stepInstanceId : Nat)
    (params : StepParams) : List Taking :=
  match db.readySignal? processId params.signalType with
  | none => []
  | some signal =>
      .signal db signal :: advanceTakings entering
        (db.consumeSignal processId stepInstanceId params.outcome signal) processId params.outcome

def afterStoredTakings (entering : EntryTakings) (db : Db) (process : Process)
    (signalType : String) : List Taking :=
  match db.waitingStep? process.id with
  | none => []
  | some stepInstance =>
      match db.config.stepDefinition? process.flowName process.flowVersion stepInstance.stepKey with
      | none => []
      | some definition =>
          if definition.params.signalType = some signalType then
            readySignalsTakings entering db process.id stepInstance.id definition.params
          else []

def acceptSignalTakings (entering : EntryTakings) (db : Db) (processId : Nat)
    (signalType messageId : String) (payload : Json) : List Taking :=
  let bodyHash := db.digest payload.render
  if (db.workflow.signal? messageId).isSome ∨
      db.workflow.signals.any fun row => sameSignal row processId signalType bodyHash then []
  else
    match db.workflow.process? processId with
    | none => []
    | some process =>
        afterStoredTakings entering ((db.insertSignal messageId processId signalType
          bodyHash).insertEvent processId none .signalAccepted) process signalType

def messageTakings (entering : EntryTakings) (db : Db) (message : InboxRow) : List Taking :=
  .message db message :: acceptSignalTakings entering db message.processId message.signalType
    message.messageId message.payload

def inboxTakings (entering : EntryTakings) (db : Db) (processId : Nat)
    (signalType : Option String) : List Taking :=
  match db.receivedMessage? processId signalType with
  | none => []
  | some message => messageTakings entering db message

def enterStepTakingsBody (enter : EnterStep) (entering : EntryTakings) : EntryTakings :=
  fun db processId stepKey =>
    match db.workflow.process? processId with
    | none => []
    | some process =>
        match db.config.stepDefinition? process.flowName process.flowVersion stepKey with
        | none => []
        | some definition =>
            let placed := db.placeStep processId definition
            match definition.stepType with
            | .waitSignal =>
                readySignalsTakings entering placed processId db.nextId definition.params ++
                  match applyReadySignals enter placed processId db.nextId definition.params with
                  | .error _ => []
                  | .ok ready => inboxTakings entering ready processId definition.params.signalType
            | _ => []

def enterStepTakings : Nat → EntryTakings
  | 0 => fun _ _ _ => []
  | depth + 1 => enterStepTakingsBody (enterStep depth) (enterStepTakings depth)

/-! The functions other roles may execute. -/

def startProcessTakings (db : Db) (flowName businessKey : String) (data : Json) : List Taking :=
  match db.startedProcess? flowName businessKey, db.activeVersion? flowName with
  | none, some version =>
      let inserted := (db.insertProcess flowName version.version businessKey data).insertEvent
        db.nextId none .processStarted
      enterStepTakings (recursionBound inserted) inserted db.nextId version.map.startStep
  | _, _ => []

def reconcileTakings : List InboxRow → Db × Nat → List Taking
  | [], _ => []
  | message :: rest, state =>
      (match acceptSignal (enterStep (recursionBound state.1)) state.1 message.processId
          message.signalType message.messageId message.payload with
        | .error _ => []
        | .ok _ => messageTakings (enterStepTakings (recursionBound state.1)) state.1 message) ++
        reconcileTakings rest (reconcileOne state message)

def finishJobTakings (db : Db) (jobId : Nat) (leaseVersion : Option Int) (outcome : Option String) :
    List Taking :=
  match db.workflow.job? jobId with
  | none => []
  | some job =>
      let completed := db.completeJob job leaseVersion outcome
      advanceTakings (enterStepTakings (recursionBound completed)) completed job.processId outcome

def manualTakings (db : Db) (principal : Option String) (payload : Json) : List Taking :=
  match ((payload.text? "processId").bind castUuid).bind db.workflow.process?,
      ((payload.text? "stepInstanceId").bind castUuid).bind db.workflow.step?,
      payload.text? "decision" with
  | some process, some step, some decision =>
      if step.processId ≠ process.id ∨ step.stepType ≠ .manual ∨ step.state ≠ .waiting then []
      else
        match DecisionOutcome.ofText? decision with
        | none => []
        | some outcome =>
            if db.payment.decisions.any fun row => row.stepInstanceId = step.id then []
            else
              let decided := (db.insertDecision process.id step.id .manual principal
                ((payload.text? "reason").map db.digest) outcome none).completeManual process.id
                  step.id decision
              advanceTakings (enterStepTakings (recursionBound decided)) decided process.id
                (some decision)
  | _, _, _ => []

def submitTakings (db : Db) (payload : Json) : List Taking :=
  match db.operationOf? payload with
  | none => []
  | some operation =>
      if operation.processId ≠ none ∨ operation.status ≠ .created then []
      else
        match db.config.flowBindings.find? fun row =>
            row.operationKind = operation.operationKind with
        | none => []
        | some binding =>
            startProcessTakings db binding.flowName (uuidText operation.id) (processData operation)

def targetTakings (target : Target) (db : Db) (context : Context) (payload : Json) : List Taking :=
  match target with
  | .manualV1 => manualTakings db context.principal payload
  | .submitV1 => submitTakings db payload
  | _ => []

def invokeTakings (db : Db) (module action : String) (version : Option Int) (context : Context)
    (payload : Json) : List Taking :=
  match catalogRow db.config module action version with
  | .error _ => []
  | .ok row =>
      match target? row.targetSchema row.targetFunction with
      | none => []
      | some target =>
          match row.requiredPolicy.all context.scopes.contains,
              runTarget target db context payload with
          | true, .ok _ => targetTakings target db context payload
          | _, _ => []

def workTakings (db : Db) (claimed : ClaimedJob) : List Taking :=
  match buildPayload claimed.processData claimed.task, runAction db claimed with
  | .ok payload, .ok (acted, outcome) =>
      invokeTakings db claimed.task.module claimed.task.action (some claimed.task.actionVersion)
        (workerContext claimed) payload ++
          finishJobTakings acted claimed.jobId (some (claimed.leaseVersion : Int)) (some outcome)
  | _, _ => []

def Call.takings (db : Db) (call : Call) : List Taking :=
  if (execDb db call).isNone then []
  else
    match call with
    | .startProcess flowName businessKey data => startProcessTakings db flowName businessKey data
    | .acceptSignal processId signalType messageId payload =>
        acceptSignalTakings (enterStepTakings (recursionBound db)) db processId signalType messageId
          payload
    | .reconcileInbox limit locked =>
        reconcileTakings (db.reconcileBatch limit locked) (db, 0)
    | .finishJob jobId _ leaseVersion outcome => finishJobTakings db jobId leaseVersion outcome
    | .work claimed => workTakings db claimed
    | .invoke module action version context payload =>
        invokeTakings db module action version context payload
    | _ => []

end PaymentWorkflow
