import PaymentWorkflow.TrailProofs
import PaymentWorkflow.FaultProofs
import PaymentWorkflow.HandedProofs
import PaymentWorkflow.BudgetProofs

/-!
A process on an accepted map runs to an end: it enters no step twice, no call takes it off the
map, and it can only stop at an END step or at a dead job.
-/

namespace PaymentWorkflow

/-! The walk of a process, in the map of its version. -/

theorem FlowMap.Accepted.successor {catalog : List ActionRow} {map : FlowMap}
    (accepted : map.Accepted catalog) {source target : String}
    (edge : Search.Edge map.successors target source) : target ∈ map.stepKeys := by
  obtain ⟨outcome, _, leads⟩ := List.mem_filterMap.mp edge
  exact accepted.target leads

theorem Config.Faithful.edge {config : Config} (faithful : config.Faithful) {version : FlowVersion}
    (member : version ∈ config.flowVersions) {step next : StepInstance}
    (leads : Leads config version.flowName version.version step next) :
    Search.Edge version.map.successors next.stepKey step.stepKey := by
  obtain ⟨_, transition, found, target⟩ := leads
  have matched := List.find?_some found
  simp only [decide_eq_true_eq] at matched
  rw [← matched.2.2.2] at found
  have read := faithful.transition? member step.stepKey transition.outcome
  rw [found] at read
  exact target ▸ FlowMap.edge read.symm

theorem Config.Faithful.endStep {config : Config} (faithful : config.Faithful)
    {version : FlowVersion} (member : version ∈ config.flowVersions) {key : String}
    {definition : StepDefinition}
    (found : config.stepDefinition? version.flowName version.version key = some definition)
    (type : definition.stepType = .endStep) :
    ∃ step ∈ version.map.steps, step.key = key ∧ step.type = "end" := by
  rw [faithful.stepDefinition? member] at found
  obtain ⟨step, chosen, projected⟩ := Option.bind_eq_some_iff.mp found
  have inside := List.mem_of_find?_eq_some chosen
  have keyed := List.find?_some chosen
  simp only [decide_eq_true_eq] at keyed
  obtain ⟨catalog, accepted, _⟩ := faithful.accepted version member
  obtain ⟨stepType, kind⟩ := accepted.kind inside
  simp only [FlowMap.define, kind.ofText?, Option.map_some, Option.some.injEq] at projected
  subst projected
  cases type
  cases kind with
  | endStep outcome type => exact ⟨step, inside, keyed, type⟩

structure Ends (map : FlowMap) (view : View) (process : Process) : Prop where
  once : (view.steps.map StepInstance.stepKey).Nodup
  onMap : ∀ step ∈ view.steps, step.stepKey ∈ map.stepKeys
  bounded : view.steps.length ≤ map.steps.length
  completed : process.state = .completed → ∃ step ∈ view.steps,
    process.currentStepKey = some step.stepKey ∧ step.state = .completed ∧
      ∃ mapStep ∈ map.steps, mapStep.key = step.stepKey ∧ mapStep.type = "end"
  failed : process.state = .failed → ∃ step ∈ view.steps,
    process.currentStepKey = some step.stepKey ∧ step.state = .failed ∧
      ∃ job ∈ view.jobs, job.stepInstanceId = step.id ∧ job.state = .dead

theorem Trail.ends {db : Db} {process : Process} {earlier : List StepInstance} {last : StepInstance}
    (trail : Trail db.config (db.view process.id) process earlier last)
    (faithful : db.config.Faithful) (rows : db.Rows) (member : process ∈ db.workflow.processes) :
    ∃ version ∈ db.config.flowVersions, version.flowName = process.flowName ∧
      version.version = process.flowVersion ∧ Ends version.map (db.view process.id) process := by
  obtain ⟨version, versionMember, named, numbered, start⟩ := trail.first
  obtain ⟨catalog, accepted, _⟩ := faithful.accepted version versionMember
  refine ⟨version, versionMember, named, numbered, ?_⟩
  have keys : List.IsChain (fun source target => Search.Edge version.map.successors target source)
      ((db.view process.id).steps.map StepInstance.stepKey) := by
    rw [trail.steps, List.isChain_map]
    refine trail.walk.imp fun step next leads => ?_
    rw [← named, ← numbered] at leads
    exact faithful.edge versionMember leads
  have first : ((db.view process.id).steps.map StepInstance.stepKey).head? =
      some version.map.startStep := by
    rw [trail.steps, List.head?_map]
    exact start
  obtain ⟨rest, shape⟩ : ∃ rest, (db.view process.id).steps.map StepInstance.stepKey =
      version.map.startStep :: rest := List.head?_eq_some_iff.mp first
  have once : ((db.view process.id).steps.map StepInstance.stepKey).Nodup := by
    rw [shape] at keys ⊢
    exact Search.walk_nodup accepted.acyclic keys
  have inside : ∀ key ∈ (db.view process.id).steps.map StepInstance.stepKey,
      key ∈ version.map.stepKeys := by
    rw [shape] at keys ⊢
    intro key keyMember
    rcases List.mem_cons.mp keyMember with same | later
    · exact same ▸ accepted.start
    · obtain ⟨source, edge, _⟩ :=
        Relation.TransGen.head'_iff.mp (Search.walk_after keys key later)
      exact accepted.successor edge
  have lastMember : last ∈ (db.view process.id).steps := by
    rw [trail.steps]
    simp
  refine ⟨once, fun step stepMember => inside _ (List.mem_map_of_mem stepMember), ?_, ?_, ?_⟩
  · have fits := (List.subperm_of_subset once inside).length_le
    simpa [FlowMap.stepKeys] using fits
  · intro state
    obtain ⟨type, completed⟩ := trail.completed state
    obtain ⟨lastRow, owns⟩ := Db.mem_view_steps.mp lastMember
    obtain ⟨definition, defined, sameType⟩ := rows.definition lastRow member owns.symm
    rw [← named, ← numbered] at defined
    exact ⟨last, lastMember, trail.current, completed,
      faithful.endStep versionMember defined (sameType.trans type)⟩
  · intro state
    obtain ⟨failed, job, jobMember, runs, dead⟩ := trail.failed state
    exact ⟨last, lastMember, trail.current, failed, job, jobMember, runs, dead⟩

/-! What the calls that touch no map may raise. -/

abbrev OnCourse {Value : Type} (result : Except SqlError Value) : Prop :=
  Within true result fun _ => True

namespace OnCourse

variable {db : Db} {payload : Json} {context : Context}

theorem of_within {mapped : Bool} {Value : Type} {result : Except SqlError Value}
    {kept : Value → Prop} (within : Within mapped result kept) : Within mapped result fun _ => True :=
  within.mono fun _ _ => trivial

theorem bind {Value Result : Type} {first : Except SqlError Value}
    {next : Value → Except SqlError Result} (start : OnCourse first)
    (rest : ∀ value, first = .ok value → OnCourse (next value)) : OnCourse (first >>= next) :=
  Within.bind start fun value returned _ => rest value returned

theorem foldlM {Value Item : Type} {turn : Value → Item → Except SqlError Value}
    (turns : ∀ value item, OnCourse (turn value item)) :
    ∀ (items : List Item) (value : Value), OnCourse (items.foldlM turn value) := by
  intro items
  induction items with
  | nil => intro value; exact trivial
  | cons item rest ih =>
      intro value
      rw [List.foldlM_cons]
      exact bind (turns value item) fun next _ => ih next

theorem withOperation {body : Operation → Except SqlError (Db × Envelope)}
    (stays : ∀ operation ∈ db.payment.operations, OnCourse (body operation)) :
    OnCourse (withOperation db payload body) := by
  simp only [PaymentWorkflow.withOperation]
  split
  · trivial
  split
  · trivial
  split
  · trivial
  rename_i operation found
  exact stays operation (Table.lookup_mem found).1

theorem setStatus {operationId : Nat} {status : OperationStatus} {eventType : OperationEventType}
    {payloadHash : String} {processId : Option Nat} :
    OnCourse (setStatus db operationId status eventType payloadHash processId) := by
  simp only [PaymentWorkflow.setStatus]
  split
  · trivial
  split
  · trivial
  split
  · rfl
  · trivial

theorem closeOperation {operation : Operation} {status : OperationStatus}
    {eventType : OperationEventType} {outcome : String} :
    OnCourse (closeOperation db payload operation status eventType outcome) :=
  bind setStatus fun _ _ => trivial

theorem withEvidence {operation : Operation} {receipt : ReceiptOutcome}
    {decision : DecisionOutcome} {receiptMissing decisionMissing : String}
    {body : Except SqlError (Db × Envelope)} (stays : OnCourse body) :
    OnCourse (withEvidence db operation receipt decision receiptMissing decisionMissing body) := by
  simp only [PaymentWorkflow.withEvidence]
  split
  · split
    · exact stays
    · trivial
  · split
    · exact stays
    · trivial

theorem correlationUuid : OnCourse (correlationUuid context) := by
  simp only [PaymentWorkflow.correlationUuid]
  split
  · rfl
  split
  · rfl
  · trivial

theorem requestV1 : OnCourse (requestV1 db context payload) := by
  simp only [PaymentWorkflow.requestV1]
  split
  · trivial
  split
  · trivial
  split
  · rfl
  split
  · rfl
  split
  · trivial
  split
  · split
    · rfl
    split
    · rfl
    split
    · rfl
    · trivial
  · rfl

theorem prepareExternal {operation : Operation} : OnCourse (prepareExternal db context operation) := by
  simp only [PaymentWorkflow.prepareExternal]
  split
  · refine bind correlationUuid fun _ _ => ?_
    split
    · rfl
    · trivial
  · split
    · trivial
    · exact bind correlationUuid fun _ _ => trivial

theorem prepareExternalV1 : OnCourse (prepareExternalV1 db context payload) := by
  refine withOperation fun operation _ => ?_
  split
  · trivial
  · exact bind prepareExternal fun _ _ => trivial

theorem applyReceiptV1 : OnCourse (applyReceiptV1 db payload) := by
  refine withOperation fun operation _ => ?_
  split
  · trivial
  split
  · trivial
  · trivial

theorem checkLimitV1 : OnCourse (checkLimitV1 db payload) := by
  refine withOperation fun operation _ => ?_
  simp only [checkLimit]
  split
  · split
    · rfl
    split
    · rfl
    · trivial
  · trivial

theorem receiptAcceptV1 : OnCourse (receiptAcceptV1 db context payload) := by
  refine bind ?_ fun version _ => ?_
  · simp only [intArgument]
    split
    · trivial
    split
    · rfl
    · trivial
  have body : OnCourse (receiptAcceptBody db context payload version) := by
    simp only [receiptAcceptBody]
    split
    · trivial
    split
    · trivial
    split
    · trivial
    split
    · trivial
    split
    · trivial
    split
    · trivial
    split
    · trivial
    simp only [storeReceipt]
    split
    · trivial
    split
    · split
      · rfl
      split
      · rfl
      · trivial
    · rfl
  split
  · split
    · trivial
    · trivial
  · exact body

theorem claimJobs {owner : String} {batch leaseMs : Option Int} {locked : Nat → Bool} :
    OnCourse (claimJobs db owner batch leaseMs locked) := by
  simp only [PaymentWorkflow.claimJobs]
  split
  · rfl
  split
  · rfl
  split
  · rfl
  refine foldlM (fun state job => ?_) _ _
  refine bind ?_ fun leased _ => ?_
  · simp only [leaseJob]
    split
    · trivial
    · rfl
  split
  · split
    · trivial
    dsimp only
    split
    · split
      · trivial
      · trivial
    · trivial
  · trivial

theorem failJob {jobId : Nat} {owner errorCode : Option String} {leaseVersion : Option Int}
    {retryable : Bool} : OnCourse (failJob db jobId owner leaseVersion errorCode retryable) := by
  simp only [PaymentWorkflow.failJob]
  split
  · rfl
  split
  · rfl
  split
  · trivial
  · trivial

theorem claimOutbox {owner : String} {limit : Option Int} {locked : Nat → Bool} :
    OnCourse (claimOutbox db owner limit locked) := by
  simp only [PaymentWorkflow.claimOutbox]
  split
  · rfl
  split
  · rfl
  · trivial

theorem recordDispatch {module action : String} {version : Int} {envelope : Envelope} :
    OnCourse (recordDispatch db module action version context envelope) := by
  simp only [PaymentWorkflow.recordDispatch]
  split
  · trivial
  split
  · split
    · rfl
    split
    · trivial
    split
    · rfl
    split
    · rfl
    · trivial
  · rfl

theorem invoke {module action : String} {version : Option Int} :
    OnCourse (invoke db module action version context payload) := by
  simp only [PaymentWorkflow.invoke]
  split
  · trivial
  split
  · trivial
  split
  · trivial
  split
  · trivial
  · exact bind recordDispatch fun _ _ => trivial

end OnCourse

/-! The calls of the engine. -/

section Engine

variable {db : Db}

theorem startProcess_stays (calm : db.Calm) (faithful : db.config.Faithful)
    {flowName businessKey : String} {data : Json} :
    OnCourse (startProcess db flowName businessKey data) := by
  have body : OnCourse (startProcessBody db flowName businessKey data) := by
    simp only [startProcessBody]
    split
    · rfl
    split
    · rfl
    split
    · split
      · trivial
      · rfl
    rename_i absent
    split
    · rfl
    rename_i version active
    have chosen := Table.first_mem active
    simp only [List.mem_filter, decide_eq_true_eq] at chosen
    obtain ⟨catalog, accepted, _⟩ := faithful.accepted version chosen.1
    have rows := Db.startRows calm.sound.rows flowName version.version businessKey data
    refine Within.bind (@enterStep_within true _ _
      ⟨db.nextId, flowName, version.version, businessKey, .created, none, data⟩
      version.map.startStep rows (@Db.Rows.process? _ rows ⟨db.nextId, flowName, version.version,
        businessKey, .created, none, data⟩ (by simp)) ?_ ?_ (Db.unspent_lt_recursionBound _)) ?_
    · intro definition defined
      exact (EngineMove.started absent active defined).sound calm.sound
    · exact fun _ => ⟨faithful, version, chosen.1, chosen.2.1, rfl, accepted.start⟩
    · intro entered _ _
      split
      · trivial
      · rfl
  simp only [startProcess]
  split
  · split
    · split
      · trivial
      · rfl
    · rfl
  · exact body

theorem acceptSignal_stays (calm : db.Calm) (faithful : db.config.Faithful) {processId : Nat}
    {signalType messageId : String} {payload : Json} :
    OnCourse (acceptSignal (enterStep (recursionBound db)) db processId signalType messageId
      payload) := by
  have bound := db.unspent_lt_recursionBound
  refine OnCourse.of_within (acceptSignal_within (enterStep_within _) calm.sound (fun _ => faithful)
    (Nat.le_refl (recursionBound db)) (Nat.le_of_lt bound) ?_)
  intro _
  exact Nat.le_trans Db.unspent_insertSignal bound

theorem reconcileOne_stays (calm : db.Calm) (faithful : db.config.Faithful)
    (earlier : List InboxRow) (message : InboxRow) :
    let state := (earlier.foldl reconcileOne (db, 0)).1
    OnCourse (acceptSignal (enterStep (recursionBound state)) state message.processId
      message.signalType message.messageId message.payload) := by
  have steps := reconcileBatch_steps earlier (db, 0) calm
  refine acceptSignal_stays (steps.calm calm) ?_
  rw [steps.config_eq]
  exact faithful

def Db.Declares (db : Db) (jobId : Nat) (outcome : Option String) : Bool :=
  match db.workflow.job? jobId with
  | none => true
  | some job =>
      (db.taskOf job).any fun definition =>
        (db.config.action? definition.task.module definition.task.action
          definition.task.actionVersion).any fun action => outcome.any action.outcomes.contains

theorem finishJob_stays (calm : db.Calm) (faithful : db.config.Faithful) {jobId : Nat}
    {owner outcome : Option String} {leaseVersion : Option Int}
    (declared : db.Declares jobId outcome = true) :
    OnCourse (finishJob db jobId owner leaseVersion outcome) := by
  simp only [finishJob]
  split
  · rfl
  rename_i job found
  obtain ⟨member, rfl⟩ := Table.lookup_mem found
  split
  · rfl
  rename_i held
  simp only [Bool.not_eq_true] at held
  obtain ⟨process, processMember, owns, step, stepMember, runs, stepOwns, state, current,
    automatic, _⟩ := calm.sound.running member (by rw [(held_leased held).1]; rfl)
  simp only [Db.Declares, found, Db.taskOf_eq calm.sound.rows stepMember runs processMember owns,
    Option.any_eq_true, List.contains_iff_mem] at declared
  obtain ⟨task, pinned, action, catalogued, known, rfl, listed⟩ := declared
  have offers := faithful.performs pinned catalogued listed
  obtain ⟨transition, leads, _⟩ := faithful.leads offers
  have stepFound : db.workflow.step? job.stepInstanceId = some step := by
    rw [← runs]
    exact calm.sound.rows.step? stepMember
  have processFound : db.workflow.process? job.processId = some process := by
    rw [← owns]
    exact calm.sound.rows.process? processMember
  simp only [stepFound, processFound, leads]
  rw [← current] at leads
  rw [← owns]
  refine Within.bind (@advance_within true _ _ (db.completeJob job leaseVersion (some known))
    (enterStep_within _) (Db.completeJob_rows calm.sound.rows _ _ _) process (some known)
    (calm.sound.rows.process? processMember) ?_ ?_ (Db.unspent_lt_recursionBound _)) ?_
  · intro transition next leads placed
    rw [owns]
    exact (EngineMove.finished member held stepMember runs processMember owns leads placed).sound
      calm.sound
  · exact fun _ => ⟨faithful, step.stepKey, known, current, rfl, offers⟩
  · exact fun _ _ _ => trivial

def Db.Allows (db : Db) (payload : Json) : Bool :=
  match ((payload.text? "stepInstanceId").bind castUuid).bind db.workflow.step?,
      payload.text? "decision" with
  | some step, some decision =>
      step.stepType ≠ .manual ∨ ((DecisionOutcome.ofText? decision).isSome ∧
        ((db.workflow.process? step.processId).any fun process =>
          (db.config.stepDefinition? process.flowName process.flowVersion step.stepKey).any
            fun definition => definition.params.allowedOutcomes.any fun outcomes =>
              outcomes.contains decision))
  | none, _ => true
  | some _, none => false

theorem manualBody_stays (calm : db.Calm) (faithful : db.config.Faithful)
    {principal reason : Option String} {processId : Option Nat} {payload : Json}
    (allowed : db.Allows payload = true) :
    OnCourse (manualBody db principal processId ((payload.text? "stepInstanceId").bind castUuid)
      (payload.text? "decision") reason) := by
  simp only [manualBody]
  split
  · trivial
  rename_i process found
  split
  · trivial
  rename_i step stepFound
  split
  · trivial
  rename_i awaited
  simp only [not_or, ne_eq, not_not] at awaited
  split
  · rfl
  rename_i decision named
  split
  · rfl
  rename_i outcome known
  split
  · rfl
  rename_i undecided
  obtain ⟨_, _, processFound⟩ := Option.bind_eq_some_iff.mp found
  have processMember := (Table.lookup_mem processFound).1
  have stepRow := stepFound
  obtain ⟨_, _, stepRow⟩ := Option.bind_eq_some_iff.mp stepRow
  have stepMember := (Table.lookup_mem stepRow).1
  have found' := calm.sound.rows.process? processMember
  obtain ⟨current, _⟩ := (calm.sound.settled process.id).of_waiting found'
    (Db.mem_view_steps.mpr ⟨stepMember, awaited.1⟩) awaited.2.2 (by rw [awaited.2.1]; simp)
  have offers : db.config.Offers process.flowName process.flowVersion step.stepKey decision := by
    simp only [Db.Allows, stepFound, named, awaited.1, found', known, awaited.2.1, ne_eq,
      not_true_eq_false, false_or, Option.isSome_some, true_and, decide_eq_true_eq,
      Option.any_some, Option.any_eq_true, List.contains_iff_mem] at allowed
    obtain ⟨definition, defined, outcomes, listed, inside⟩ := allowed
    obtain ⟨same, found, type⟩ := calm.sound.rows.definition stepMember processMember
      awaited.1.symm
    obtain rfl := Option.some.inj (defined.symm.trans found)
    exact faithful.decides defined (type.trans awaited.2.1) listed inside
  refine Within.bind (@advance_within true _ _ ((db.insertDecision process.id step.id .manual
    principal (reason.map db.digest) outcome none).completeManual process.id step.id decision)
    (enterStep_within _) (Db.decide_rows calm.sound.rows _ _ _ _ _ _) process (some decision)
    found' ?_ ?_ (Db.unspent_lt_recursionBound _)) ?_
  · intro transition next leads placed
    exact (EngineMove.decided principal (reason.map db.digest) processMember stepMember awaited.1
      awaited.2.1 awaited.2.2 known (by simpa using undecided) leads placed).sound calm.sound
  · exact fun _ => ⟨faithful, step.stepKey, decision, current, rfl, offers⟩
  · exact fun _ _ _ => trivial

theorem uuidArgument_stays {payload : Json} {key : String} : OnCourse (uuidArgument payload key) := by
  simp only [uuidArgument]
  split
  · trivial
  split
  · rfl
  · trivial

theorem uuidArgument_eq {payload : Json} {key : String} {id : Option Nat}
    (read : uuidArgument payload key = .ok id) : id = (payload.text? key).bind castUuid := by
  simp only [uuidArgument] at read
  split at read
  · rename_i missing
    cases read
    simp [missing]
  rename_i content named
  split at read
  · simp at read
  · rename_i known cast
    cases read
    simp [named, cast]

theorem manualV1_stays (calm : db.Calm) (faithful : db.config.Faithful)
    {principal : Option String} {payload : Json} (allowed : db.Allows payload = true) :
    OnCourse (manualV1 db principal payload) := by
  refine OnCourse.bind uuidArgument_stays fun processId _ => ?_
  refine OnCourse.bind uuidArgument_stays fun stepInstanceId read => ?_
  split
  · trivial
  · rw [uuidArgument_eq read]
    exact manualBody_stays calm faithful allowed

theorem submitV1_stays (calm : db.Calm) (faithful : db.config.Faithful) {payload : Json} :
    OnCourse (submitV1 db payload) := by
  refine OnCourse.withOperation fun operation _ => ?_
  simp only [submitOperation]
  split
  · trivial
  split
  · trivial
  split
  · trivial
  refine OnCourse.bind (startProcess_stays calm faithful) fun started _ => ?_
  exact OnCourse.bind OnCourse.setStatus fun _ _ => trivial

theorem runTarget_stays (calm : db.Calm) (faithful : db.config.Faithful) {target : Target}
    {context : Context} {payload : Json}
    (allowed : target = .manualV1 → db.Allows payload = true) :
    OnCourse (runTarget target db context payload) := by
  cases target with
  | requestV1 => exact OnCourse.requestV1
  | getV1 => exact OnCourse.withOperation fun _ _ => trivial
  | operationEventsV1 => exact OnCourse.withOperation fun _ _ => trivial
  | submitV1 => exact submitV1_stays calm faithful
  | validateV1 =>
      refine OnCourse.withOperation fun operation _ => ?_
      split
      · trivial
      · trivial
  | prepareExternalV1 => exact OnCourse.prepareExternalV1
  | applyReceiptV1 => exact OnCourse.applyReceiptV1
  | checkLimitV1 => exact OnCourse.checkLimitV1
  | approveV1 =>
      refine OnCourse.withOperation fun operation _ => ?_
      split
      · exact OnCourse.closeOperation
      · trivial
  | completeV1 => exact OnCourse.withOperation fun _ _ => OnCourse.withEvidence OnCourse.closeOperation
  | rejectV1 => exact OnCourse.withOperation fun _ _ => OnCourse.withEvidence OnCourse.closeOperation
  | receiptAcceptV1 => exact OnCourse.receiptAcceptV1
  | manualV1 => exact manualV1_stays calm faithful (allowed rfl)

end Engine

/-! What a call raises, whether or not a handler catches it. -/

def routed? (db : Db) (module action : String) (version : Option Int) : Option Target :=
  match catalogRow db.config module action version with
  | .ok row => target? row.targetSchema row.targetFunction
  | .error _ => none

inductive Raises (db : Db) : Call → SqlError → Prop
  | started {flowName businessKey : String} {data : Json} {failure : SqlError}
      (raised : startProcess db flowName businessKey data = .error failure) :
      Raises db (.startProcess flowName businessKey data) failure
  | signalled {processId : Nat} {signalType messageId : String} {payload : Json}
      {failure : SqlError}
      (raised : acceptSignalCall db processId signalType messageId payload = .error failure) :
      Raises db (.acceptSignal processId signalType messageId payload) failure
  | refused {limit : Option Int} {locked : String → Bool} {failure : SqlError}
      (raised : reconcileInbox db limit locked = .error failure) :
      Raises db (.reconcileInbox limit locked) failure
  | skipped {limit : Option Int} {locked : String → Bool} {earlier rest : List InboxRow}
      {message : InboxRow} {failure : SqlError}
      (batch : db.reconcileBatch limit locked = earlier ++ message :: rest)
      (raised : let state := (earlier.foldl reconcileOne (db, 0)).1
        acceptSignal (enterStep (recursionBound state)) state message.processId
          message.signalType message.messageId message.payload = .error failure) :
      Raises db (.reconcileInbox limit locked) failure
  | claimed {owner : String} {batch leaseMs : Option Int} {locked : Nat → Bool} {failure : SqlError}
      (raised : claimJobs db owner batch leaseMs locked = .error failure) :
      Raises db (.claimJobs owner batch leaseMs locked) failure
  | finished {jobId : Nat} {owner outcome : Option String} {leaseVersion : Option Int}
      {failure : SqlError}
      (raised : finishJob db jobId owner leaseVersion outcome = .error failure) :
      Raises db (.finishJob jobId owner leaseVersion outcome) failure
  | failed {jobId : Nat} {owner errorCode : Option String} {leaseVersion : Option Int}
      {retryable : Bool} {failure : SqlError}
      (raised : failJob db jobId owner leaseVersion errorCode retryable = .error failure) :
      Raises db (.failJob jobId owner leaseVersion errorCode retryable) failure
  | acted {claimed : ClaimedJob} {payload : Json} {target : Target} {failure : SqlError}
      (built : buildPayload claimed.processData claimed.task = .ok payload)
      (route : routed? db claimed.task.module claimed.task.action
        (some claimed.task.actionVersion) = some target)
      (raised : runTarget target db (workerContext claimed) payload = .error failure) :
      Raises db (.work claimed) failure
  | worked {claimed : ClaimedJob} {failure : SqlError}
      (raised : workTransaction db claimed = .error (.database failure)) :
      Raises db (.work claimed) failure
  | ran {module action : String} {version : Option Int} {context : Context} {payload : Json}
      {target : Target} {failure : SqlError}
      (route : routed? db module action version = some target)
      (raised : runTarget target db context payload = .error failure) :
      Raises db (.invoke module action version context payload) failure
  | invoked {module action : String} {version : Option Int} {context : Context} {payload : Json}
      {failure : SqlError}
      (raised : invoke db module action version context payload = .error failure) :
      Raises db (.invoke module action version context payload) failure
  | dispatched {owner : String} {limit : Option Int} {locked : Nat → Bool} {failure : SqlError}
      (raised : claimOutbox db owner limit locked = .error failure) :
      Raises db (.claimOutbox owner limit locked) failure

/-- `finish_job` gets a declared outcome, and `manual_v1` an allowed decision it knows. -/
def Call.Declared (db : Db) : Call → Bool
  | .finishJob jobId _ _ outcome => db.Declares jobId outcome
  | .work claimed =>
      match buildPayload claimed.processData claimed.task with
      | .ok payload =>
          routed? db claimed.task.module claimed.task.action (some claimed.task.actionVersion) ≠
            some .manualV1 ∨ db.Allows payload
      | .error _ => true
  | .invoke module action version _ payload =>
      routed? db module action version ≠ some .manualV1 ∨ db.Allows payload
  | _ => true

theorem Within.raised {mapped : Bool} {Value : Type} {result : Except SqlError Value}
    {kept : Value → Prop} {failure : SqlError} (within : Within mapped result kept)
    (raised : result = .error failure) : failure.strays mapped = false := by
  subst raised
  exact within

/-- The action of a worker's transaction leaves a job whose outcome it may report. -/
theorem runAction_declares {db acted : Db} (steady : db.Steady) {claimed : ClaimedJob}
    {outcome : String} (handed : db.HasHanded claimed)
    (ran : runAction db claimed = .ok (acted, outcome)) :
    acted.Declares claimed.jobId (some outcome) = true := by
  obtain ⟨_, _, _, _, listed⟩ := runAction_cases ran
  have moves := (runAction_moves steady ran).system
  obtain ⟨job, step, process, later⟩ := handed.kept (moves.kept steady) moves.config_eq
  have rows := (moves.steady steady).calm.sound.rows
  have found : acted.workflow.job? claimed.jobId = some job := by
    rw [← later.jobId]
    exact rows.job? later.jobMember
  obtain ⟨definition, pinned, task⟩ := later.task
  obtain ⟨action, catalogued, outcomes⟩ := later.action
  rw [← outcomes] at listed
  rw [← task] at catalogued
  simp only [Db.Declares, found, Db.taskOf_eq rows later.stepMember later.runs later.processMember
    later.owns, pinned, catalogued, Option.any_some, List.contains_iff_mem]
  exact listed

theorem workTransaction_stays {db : Db} (steady : db.Steady) (faithful : db.config.Faithful)
    {claimed : ClaimedJob} (handed : db.HasHanded claimed) {failure : SqlError}
    (raised : workTransaction db claimed = .error (.database failure)) :
    failure.strays true = false := by
  simp only [workTransaction] at raised
  split at raised
  · rename_i other ran
    cases raised
    simp only [runAction] at ran
    split at ran
    · simp at ran
    split at ran
    · simp at ran
    split at ran
    · rename_i error invoked
      cases ran
      exact OnCourse.invoke.raised invoked
    · simp at ran
    · split at ran
      · simp at ran
      · simp at ran
  · rename_i acted outcome ran
    split at raised
    · rename_i error finished
      cases raised
      have moves := (runAction_moves steady ran).system
      refine (finishJob_stays (moves.steady steady).calm ?_
        (runAction_declares steady handed ran)).raised finished
      rw [moves.config_eq]
      exact faithful
    · simp at raised

theorem raises_stays {db : Db} (steady : db.Steady) (faithful : db.config.Faithful) {call : Call}
    (handed : ∀ claimed, call = .work claimed → db.HasHanded claimed)
    (declared : call.Declared db = true) {failure : SqlError} (raises : Raises db call failure) :
    failure.strays true = false := by
  have calm := steady.calm
  cases raises with
  | started raised => exact (startProcess_stays calm faithful).raised raised
  | signalled raised => exact (acceptSignal_stays calm faithful).raised raised
  | refused raised =>
      simp only [reconcileInbox] at raised
      split at raised
      · cases raised
        rfl
      · simp at raised
  | skipped batch raised => exact (reconcileOne_stays calm faithful _ _).raised raised
  | claimed raised => exact OnCourse.claimJobs.raised raised
  | finished raised => exact (finishJob_stays calm faithful declared).raised raised
  | failed raised => exact OnCourse.failJob.raised raised
  | acted built route raised =>
      simp only [Call.Declared, built, route, decide_eq_true_eq] at declared
      refine (runTarget_stays calm faithful fun manual => ?_).raised raised
      exact declared.resolve_left (by simp [manual])
  | worked raised => exact workTransaction_stays steady faithful (handed _ rfl) raised
  | ran route raised =>
      simp only [Call.Declared, route, decide_eq_true_eq] at declared
      refine (runTarget_stays calm faithful fun manual => ?_).raised raised
      exact declared.resolve_left (by simp [manual])
  | invoked raised => exact OnCourse.invoke.raised raised
  | dispatched raised => exact OnCourse.claimOutbox.raised raised

/-- Every process comes to an end its map gives it, and no call takes it off the map. -/
theorem accepted_map_ends {config : Config} (published : Published config) (clock : Nat → Time)
    (digest : String → String) (calls : List Call) :
    (∀ process ∈ (reached config clock digest calls).db.workflow.processes,
      ∃ version ∈ config.flowVersions, version.flowName = process.flowName ∧
        version.version = process.flowVersion ∧
          Ends version.map ((reached config clock digest calls).db.view process.id) process) ∧
    ∀ call failure, call.enabled (reached config clock digest calls) = true →
      call.Declared (reached config clock digest calls).db = true →
        Raises (reached config clock digest calls).db call failure →
          failure.strays true = false := by
  have steady := @reached_steady config clock digest calls
  have same := @reached_config config clock digest calls
  have faithful : (reached config clock digest calls).db.config.Faithful := by
    rw [same]
    exact published.faithful
  constructor
  · intro process member
    obtain ⟨earlier, last, trail⟩ := @reached_trailed config clock digest calls process.id process
      (steady.calm.sound.rows.process? member)
    have ends := trail.ends faithful steady.calm.sound.rows member
    rw [same] at ends
    exact ends
  · intro call failure enabled declared raises
    refine raises_stays steady faithful ?_ declared raises
    rintro claimed rfl
    exact reached_handed config clock digest calls claimed (by simpa [Call.enabled] using enabled)

namespace Seed

def preparedProcess : Process :=
  ⟨1, "payment-processing", 1, uuidText 0, .waitingSignal, some "wait_receipt",
    processData ⟨0, "request", "client", .paymentExecution, 1000, "RUB", .created, none⟩⟩

end Seed

theorem accepted_map_ends_prepared :
    (∃ version ∈ Seed.config.flowVersions, version.flowName = "payment-processing" ∧
      version.version = 1 ∧
        Ends version.map ((seeded Seed.prepared).db.view 1) Seed.preparedProcess) ∧
    ∃ failure, finishJob (seeded Seed.prepared).db 7 (some "worker") (some 1) (some "PREPARED") =
      .error failure ∧ failure.strays true = false := by
  have ends := accepted_map_ends Seed.published (fun tick => (tick : Int)) id Seed.prepared
  refine ⟨ends.1 Seed.preparedProcess (by decide +kernel), ?_⟩
  have stale : (finishJob (seeded Seed.prepared).db 7 (some "worker") (some 1)
      (some "PREPARED")).toOption.isNone = true := by decide +kernel
  cases raised : finishJob (seeded Seed.prepared).db 7 (some "worker") (some 1)
      (some "PREPARED") with
  | ok value =>
      rw [raised] at stale
      simp [Except.toOption] at stale
  | error failure =>
      exact ⟨failure, rfl, ends.2 (.finishJob 7 (some "worker") (some 1) (some "PREPARED")) _ rfl
        (by decide +kernel) (.finished raised)⟩

end PaymentWorkflow
