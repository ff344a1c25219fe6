import PaymentWorkflow.TakingProofs
import PaymentWorkflow.ReceiptStore

/-! Over whole runs, what the inbox says of a message is true where every message taken fits. -/

namespace PaymentWorkflow

section Moves

variable {first second third db later : Db} {takings : List Taking}

theorem OutsideMove.takes (move : OutsideMove db later) : db.Takes takings later := by
  cases move with
  | @received external message bodyHash process operation outcome body member owner pinned
      freshMessage freshReceipt =>
      intro fits messageId processId marked
      left
      obtain ⟨row, inside, same, owns, applied⟩ := marked
      have receipts : ∀ receipt ∈ db.delivery.receipts ++ [⟨message, external.id, outcome, bodyHash,
          body, db.clock (db.ticks + 1), none⟩], receipt.appliedAt.isSome = true →
            receipt ∈ db.delivery.receipts := by
        intro receipt inside set
        rcases List.mem_append.mp inside with old | new
        · exact old
        · rw [List.mem_singleton.mp new] at set
          cases set
      rcases List.mem_append.mp inside with old | new
      · refine ⟨row, old, same, owns, applied.imp_right ?_⟩
        rintro ⟨receipt, receiptInside, receiptSame, set⟩
        exact ⟨receipt, receipts receipt receiptInside set, receiptSame, set⟩
      · obtain rfl := List.mem_singleton.mp new
        rcases applied with applied | ⟨receipt, receiptInside, receiptSame, set⟩
        · cases applied
        · have filed := List.any_eq_false.mp freshReceipt receipt
            (receipts receipt receiptInside set)
          exact absurd (receiptSame.trans same.symm) (by simpa using filed)
  | _ => exact .of_same rfl rfl

theorem SystemMoves.signalsKept (moves : SystemMoves db later) (steady : db.Steady) :
    SignalsKept db later :=
  SystemMoves.invariant (SignalsKept db)
    (fun sound _ kept move => kept.trans (move.signalsKept sound))
    (fun _ _ kept move => kept.trans (.of_workflow move.workflow_eq))
    (fun _ _ kept move => kept.trans (.of_workflow move.workflow_eq)) moves steady
    (.of_mem fun _ member => member)

theorem OutsideMoves.takes (moves : OutsideMoves db later) : db.Takes [] later := by
  induction moves with
  | refl => exact .refl _ _
  | tail _ move ih => exact ih.trans move.takes (.of_workflow move.workflow_eq)

end Moves

/-! Every call. -/

section Calls

variable {db later : Db}

theorem startProcess_takes (calm : db.Calm)
    (unique : (db.delivery.inbox.map InboxRow.messageId).Nodup) {flowName businessKey : String}
    {data : Json} {reply : StartReply}
    (returned : startProcess db flowName businessKey data = .ok (later, reply)) :
    db.Takes (startProcessTakings db flowName businessKey data) later := by
  simp only [startProcess] at returned
  split at returned
  · split at returned
    · split at returned
      · cases returned
        exact .refl _ _
      · cases returned
    · cases returned
  simp only [startProcessBody] at returned
  split at returned
  · cases returned
  split at returned
  · cases returned
  split at returned
  · split at returned
    · cases returned
      exact .refl _ _
    · cases returned
  rename_i absent
  split at returned
  · cases returned
  rename_i version active
  obtain ⟨entered, first, rest⟩ := Runs.bind_eq_ok.mp returned
  simp only [startProcessTakings, absent, active]
  split at rest
  · cases rest
    have rows := Db.startRows calm.sound.rows flowName version.version businessKey data
    have here := @Db.Rows.process? _ rows ⟨db.nextId, flowName, version.version, businessKey,
      .created, none, data⟩ (by simp)
    refine Db.Takes.after (enterStep_takes _ _ _ _ _ first rows unique ?_) rfl
    intro process definition found defined
    obtain rfl := Option.some.inj (here.symm.trans found)
    exact (@EngineMove.started db _ _ data _ _ absent active defined).sound calm.sound
  · cases rest

def Db.Addresses (db : Db) (message : InboxRow) : Prop :=
  ∀ row ∈ db.delivery.inbox, row.messageId = message.messageId →
    row.processId = message.processId

theorem Db.Addresses.of_owners {message : InboxRow} (addresses : db.Addresses message)
    (owners : later.delivery.inbox.map (fun row => (row.messageId, row.processId)) =
      db.delivery.inbox.map fun row => (row.messageId, row.processId)) :
    later.Addresses message := by
  intro row member same
  have pair := List.mem_map_of_mem (f := fun row : InboxRow => (row.messageId, row.processId))
    member
  rw [owners] at pair
  obtain ⟨old, oldMember, equal⟩ := List.mem_map.mp pair
  obtain ⟨oldSame, oldOwns⟩ := Prod.mk.inj equal
  exact oldOwns.symm.trans (addresses old oldMember (oldSame.trans same))

theorem Steps.inboxOwners (steps : db.Steps later) :
    later.delivery.inbox.map (fun row => (row.messageId, row.processId)) =
      db.delivery.inbox.map fun row => (row.messageId, row.processId) := by
  induction steps with
  | refl => rfl
  | tail _ move ih =>
      obtain ⟨processId, reaches⟩ := move
      exact reaches.moves.inboxOwners.trans ih

theorem reconcileBatch_takes (batch : List InboxRow) : ∀ state : Db × Nat, state.1.Steady →
    (state.1.delivery.inbox.map InboxRow.messageId).Nodup →
    (∀ message ∈ batch, state.1.Addresses message) →
      state.1.Takes (reconcileTakings batch state) (batch.foldl reconcileOne state).1 := by
  induction batch with
  | nil =>
      intro state _ _ _
      exact .refl _ _
  | cons message rest ih =>
      intro state steady unique addressed
      have head := reconcileOne_steps state message steady.calm
      have moves := (OtherMoves.of_steps head).system
      have tail := ih (reconcileOne state message) (moves.steady steady)
        (moves.inboxIds steady unique) fun other member =>
          (addressed other (List.mem_cons_of_mem _ member)).of_owners (Steps.inboxOwners head)
      have kept := (OtherMoves.of_steps (reconcileBatch_steps rest (reconcileOne state message)
        (moves.steady steady).calm)).system.signalsKept (moves.steady steady)
      refine Db.Takes.trans ?_ tail kept
      cases returned : acceptSignal (enterStep (recursionBound state.1)) state.1 message.processId
          message.signalType message.messageId message.payload with
      | ok accepted =>
          simp only [reconcileOne, returned]
          exact message_takes (enterStep_enters _) (enterStep_takes _) steady.calm.sound unique
            (addressed message List.mem_cons_self) (steady.calm.quiet _) returned
      | error failure =>
          simp only [reconcileOne, returned]
          exact .refl _ _

theorem reconcileInbox_takes (steady : db.Steady)
    (unique : (db.delivery.inbox.map InboxRow.messageId).Nodup) {limit : Option Int}
    {locked : String → Bool} {count : Nat}
    (returned : reconcileInbox db limit locked = .ok (later, count)) :
    db.Takes (reconcileTakings (db.reconcileBatch limit locked) (db, 0)) later := by
  simp only [reconcileInbox] at returned
  split at returned
  · cases returned
  have takes := reconcileBatch_takes (db.reconcileBatch limit locked) (db, 0) steady unique
    (by
      intro message member row inside same
      have chosen := (List.mem_insertionSort _).mp
        (List.mem_of_mem_filter ((Table.takeLimit_sublist limit _).subset member))
      rw [Table.key_unique unique inside (List.mem_of_mem_filter chosen) same])
  rw [Except.ok.inj returned] at takes
  exact takes

theorem finishJob_takes (calm : db.Calm)
    (unique : (db.delivery.inbox.map InboxRow.messageId).Nodup) {jobId : Nat}
    {owner outcome : Option String} {leaseVersion : Option Int} {reply : Option ProcessState}
    (returned : finishJob db jobId owner leaseVersion outcome = .ok (later, reply)) :
    db.Takes (finishJobTakings db jobId leaseVersion outcome) later := by
  simp only [finishJob] at returned
  split at returned
  · cases returned
  rename_i job found
  split at returned
  · cases returned
  rename_i held
  simp only [Bool.not_eq_true] at held
  split at returned
  · rename_i step process stepFound processFound
    split at returned
    · cases returned
    obtain ⟨advanced, first, rest⟩ := Runs.bind_eq_ok.mp returned
    cases rest
    simp only [finishJobTakings, found]
    obtain ⟨member, _⟩ := Table.lookup_mem found
    obtain ⟨current, currentMember, currentOwns, _, _, _, _, _, key, _⟩ :=
      calm.sound.running member (by rw [(held_leased held).1]; rfl)
    obtain ⟨stepMember, stepKey⟩ := Table.lookup_mem stepFound
    obtain ⟨processMember, processKey⟩ := Table.lookup_mem processFound
    refine Db.Takes.after (@advance_takes _ _ (db.completeJob job leaseVersion outcome) later
      job.processId (enterStep_takes _) process outcome (Db.completeJob_rows calm.sound.rows _ _ _)
      unique processFound ?_ first) rfl
    intro transition next leads placed
    exact (EngineMove.finished member held stepMember stepKey processMember processKey leads
      placed).sound calm.sound
  · cases returned

theorem manualV1_takes (calm : db.Calm)
    (unique : (db.delivery.inbox.map InboxRow.messageId).Nodup) {principal : Option String}
    {payload : Json} {envelope : Envelope}
    (returned : manualV1 db principal payload = .ok (later, envelope)) :
    db.Takes (manualTakings db principal payload) later := by
  obtain ⟨processId, processRead, rest⟩ := Runs.bind_eq_ok.mp returned
  obtain ⟨stepInstanceId, stepRead, body⟩ := Runs.bind_eq_ok.mp rest
  obtain rfl := uuidArgument_eq processRead
  obtain rfl := uuidArgument_eq stepRead
  split at body
  · cases body
    exact .refl _ _
  simp only [manualBody] at body
  split at body
  · cases body
    exact .refl _ _
  rename_i process found
  split at body
  · cases body
    exact .refl _ _
  rename_i step stepFound
  split at body
  · cases body
    exact .refl _ _
  rename_i awaited
  split at body
  · cases body
  rename_i decisionText decision
  split at body
  · cases body
  rename_i outcome known
  split at body
  · cases body
  rename_i undecided
  simp only [manualTakings, found, stepFound, decision, awaited, known, undecided, if_false,
    Bool.false_eq_true]
  obtain ⟨advanced, first, last⟩ := Runs.bind_eq_ok.mp body
  cases last
  simp only [not_or, ne_eq, not_not] at awaited
  obtain ⟨_, _, processFound⟩ := Option.bind_eq_some_iff.mp found
  obtain ⟨_, _, located⟩ := Option.bind_eq_some_iff.mp stepFound
  have owner := (Table.lookup_mem processFound).1
  refine Db.Takes.after (@advance_takes _ _ ((db.insertDecision process.id step.id .manual principal
    ((payload.text? "reason").map db.digest) outcome none).completeManual process.id step.id
      decisionText) later process.id (enterStep_takes _) process (some decisionText)
    (Db.decide_rows calm.sound.rows _ _ _ _ _ _) unique (calm.sound.rows.process? owner) ?_ first)
    rfl
  intro transition next leads placed
  exact (EngineMove.decided principal ((payload.text? "reason").map db.digest) owner
    (Table.lookup_mem located).1 awaited.1 awaited.2.1 awaited.2.2 known (by simpa using undecided)
    leads placed).sound calm.sound

theorem setStatus_workflow {operationId : Nat} {status : OperationStatus}
    {eventType : OperationEventType} {payloadHash : String} {processId : Option Nat}
    (returned : setStatus db operationId status eventType payloadHash processId = .ok later) :
    later.workflow = db.workflow := by
  simp only [setStatus] at returned
  repeat' split at returned
  all_goals first
    | cases returned; rfl
    | cases returned

theorem submitV1_takes (steady : db.Steady)
    (unique : (db.delivery.inbox.map InboxRow.messageId).Nodup) {payload : Json}
    {envelope : Envelope} (returned : submitV1 db payload = .ok (later, envelope)) :
    db.Takes (submitTakings db payload) later := by
  rcases withOperation_cases returned with ⟨rfl, _⟩ | ⟨operation, located, member, body⟩
  · exact .refl _ _
  simp only [submitOperation] at body
  split at body
  · cases body
    exact .refl _ _
  rename_i unpinned
  split at body
  · cases body
    exact .refl _ _
  rename_i created
  split at body
  · cases body
    exact .refl _ _
  rename_i binding bound
  obtain ⟨⟨started, reply⟩, first, rest⟩ := Runs.bind_eq_ok.mp body
  have taken : submitTakings db payload = startProcessTakings db binding.flowName
      (uuidText operation.id) (processData operation) := by
    simp only [ne_eq, not_not] at created
    simp [submitTakings, located, unpinned, created, bound]
  rw [taken]
  obtain ⟨submitted, written, last⟩ := Runs.bind_eq_ok.mp rest
  cases last
  have takes := (startProcess_takes steady.calm unique first).trans
    (@Db.Takes.of_delivery [] _ _ (setStatus_delivery written))
    (.of_workflow (setStatus_workflow written))
  rwa [List.append_nil] at takes

theorem withOperation_delivery {payload : Json} {envelope : Envelope}
    {body : Operation → Except SqlError (Db × Envelope)}
    (kept : ∀ operation, body operation = .ok (later, envelope) → later.delivery = db.delivery)
    (returned : withOperation db payload body = .ok (later, envelope)) :
    later.delivery = db.delivery := by
  rcases withOperation_cases returned with ⟨rfl, _⟩ | ⟨operation, _, _, ran⟩
  · rfl
  · exact kept operation ran

theorem runTarget_takes {target : Target} {context : Context} {payload : Json} {envelope : Envelope}
    (steady : db.Steady) (unique : (db.delivery.inbox.map InboxRow.messageId).Nodup)
    (returned : runTarget target db context payload = .ok (later, envelope)) :
    db.Takes (targetTakings target db context payload) later := by
  cases target with
  | requestV1 => exact (requestV1_moves returned).takes
  | getV1 | operationEventsV1 => exact (reading_moves returned).takes
  | submitV1 => exact submitV1_takes steady unique returned
  | validateV1 => exact (validateV1_moves returned).takes
  | prepareExternalV1 => exact (prepareExternalV1_moves returned).takes
  | applyReceiptV1 => exact (applyReceiptV1_moves returned).takes
  | checkLimitV1 => exact (checkLimitV1_moves returned).takes
  | receiptAcceptV1 => exact (receiptAcceptV1_moves returned).takes
  | manualV1 => exact manualV1_takes steady.calm unique returned
  | approveV1 =>
      refine .of_delivery (withOperation_delivery (fun operation ran => ?_) returned)
      split at ran
      · exact closeOperation_delivery ran
      · cases ran
        rfl
  | completeV1 | rejectV1 =>
      exact .of_delivery (withOperation_delivery (fun _ ran => withEvidence_delivery ran) returned)

theorem invoke_takes {module action : String} {version : Option Int} {context : Context}
    {payload : Json} {envelope : Envelope} (steady : db.Steady)
    (unique : (db.delivery.inbox.map InboxRow.messageId).Nodup)
    (returned : invoke db module action version context payload = .ok (later, envelope)) :
    db.Takes (invokeTakings db module action version context payload) later := by
  rcases invoke_cases returned with
    ⟨rfl, _⟩ | ⟨row, target, changed, found, known, allowed, ran, recorded⟩
  · exact .refl _ _
  simp only [invokeTakings, found, known, allowed, ran]
  have moves := recordDispatch_moves recorded
  have takes := (runTarget_takes steady unique ran).trans moves.takes
    (.of_workflow moves.workflow_eq)
  rwa [List.append_nil] at takes

theorem workTransaction_takes {claimed : ClaimedJob} (steady : db.Steady)
    (unique : (db.delivery.inbox.map InboxRow.messageId).Nodup)
    (returned : workTransaction db claimed = .ok later) : db.Takes (workTakings db claimed) later := by
  obtain ⟨acted, outcome, reply, ran, completed⟩ := workTransaction_cases returned
  have moves := (runAction_moves steady ran).system
  have between := moves.steady steady
  obtain ⟨payload, result, built, invoked, _⟩ := runAction_cases ran
  simp only [workTakings, built, ran]
  obtain ⟨job, _, _, _, reaches⟩ := finishJob_reaches between.calm completed
  exact (invoke_takes steady unique invoked).trans
    (finishJob_takes between.calm (moves.inboxIds steady unique) completed)
    (reaches.moves.signalsKept between.calm.sound)

theorem claimOne_delivery {owner : String} {leaseMs : Option Int} {job : Job}
    {claimed handed : List ClaimedJob}
    (returned : claimOne owner leaseMs (db, claimed) job = .ok (later, handed)) :
    later.delivery = db.delivery := by
  obtain ⟨leased, first, rest⟩ := Runs.bind_eq_ok.mp returned
  have same : leased.delivery = db.delivery := by
    simp only [leaseJob] at first
    split at first
    · cases first
      rfl
    · cases first
  split at rest
  · split at rest
    · cases rest
      exact same
    · simp only at rest
      split at rest
      · split at rest <;>
        · cases rest
          exact same
      · cases rest
        exact same
  · cases rest
    exact same

theorem claimAll_delivery {owner : String} {leaseMs : Option Int} : ∀ (jobs : List Job) (db later : Db)
    (claimed handed : List ClaimedJob),
      jobs.foldlM (claimOne owner leaseMs) (db, claimed) = .ok (later, handed) →
        later.delivery = db.delivery := by
  intro jobs
  induction jobs with
  | nil =>
      intro db later claimed handed returned
      cases returned
      rfl
  | cons job rest ih =>
      intro db later claimed handed returned
      simp only [List.foldlM_cons] at returned
      obtain ⟨⟨next, between⟩, first, continued⟩ := Runs.bind_eq_ok.mp returned
      exact (ih next later between handed continued).trans (claimOne_delivery first)

theorem claimJobs_delivery {owner : String} {batch leaseMs : Option Int} {locked : Nat → Bool}
    {claimed : List ClaimedJob}
    (returned : claimJobs db owner batch leaseMs locked = .ok (later, claimed)) :
    later.delivery = db.delivery := by
  simp only [claimJobs] at returned
  split at returned
  · cases returned
  split at returned
  · cases returned
  split at returned
  · cases returned
  · exact claimAll_delivery _ { db.sweepExpired with
      ticks := db.sweepExpired.ticks + db.sweepExpired.nextId } _ _ _ returned

theorem failJob_delivery {jobId : Nat} {owner errorCode : Option String} {leaseVersion : Option Int}
    {retryable : Bool} {reply : FailReply}
    (returned : failJob db jobId owner leaseVersion errorCode retryable = .ok (later, reply)) :
    later.delivery = db.delivery := by
  simp only [failJob] at returned
  split at returned
  · cases returned
  split at returned
  · cases returned
  split at returned <;>
  · cases returned
    rfl

/-- A call that returned has marked what it took, with its signals, where all of it fits. -/
theorem execDb_takes {call : Call} (steady : db.Steady)
    (unique : (db.delivery.inbox.map InboxRow.messageId).Nodup)
    (returned : execDb db call = some later) : db.Takes (call.takings db) later := by
  have runs : (execDb db call).isNone = false := by rw [returned]; rfl
  simp only [Call.takings, runs, Bool.false_eq_true, if_false]
  cases call with
  | startProcess flowName businessKey data =>
      obtain ⟨reply, ok⟩ := returned_db returned
      exact startProcess_takes steady.calm unique ok
  | acceptSignal processId signalType messageId payload =>
      obtain ⟨reply, ok⟩ := returned_db returned
      exact acceptSignal_takes (enterStep_takes _) steady.calm.sound unique ok
  | reconcileInbox limit locked =>
      obtain ⟨count, ok⟩ := returned_db returned
      exact reconcileInbox_takes steady unique ok
  | claimJobs owner batch leaseMs locked =>
      obtain ⟨claimed, ok⟩ := returned_db returned
      exact .of_delivery (claimJobs_delivery ok)
  | finishJob jobId owner leaseVersion outcome =>
      obtain ⟨reply, ok⟩ := returned_db returned
      exact finishJob_takes steady.calm unique ok
  | failJob jobId owner leaseVersion errorCode retryable =>
      obtain ⟨reply, ok⟩ := returned_db returned
      exact .of_delivery (failJob_delivery ok)
  | work claimed =>
      simp only [execDb] at returned
      cases worked : workTransaction db claimed with
      | error failure => simp [worked, Except.toOption] at returned
      | ok finished =>
          simp only [worked, Except.toOption, Option.some.injEq] at returned
          subst returned
          exact workTransaction_takes steady unique worked
  | invoke module action version context payload =>
      obtain ⟨envelope, ok⟩ := returned_db returned
      exact invoke_takes steady unique ok
  | claimOutbox owner limit locked =>
      obtain ⟨claims, ok⟩ := returned_db returned
      exact (claimOutbox_moves steady.ledger.outboxIds ok).takes
  | succeedOutbox outboxId owner leaseVersion providerPaymentId =>
      cases returned
      exact succeedOutbox_moves.takes
  | failOutbox outboxId owner leaseVersion errorCode =>
      cases returned
      exact failOutbox_moves.takes

end Calls

/-! Runs. -/

/-- What is marked as applied has a used signal of its process, and a wait that it completed. -/
structure Db.Truthful (db : Db) : Prop where
  applied : ∀ messageId processId, db.Marked messageId processId →
    ∃ process ∈ db.workflow.processes, process.id = processId ∧
      ∃ signal ∈ db.workflow.signals, signal.messageId = messageId ∧
        signal.processId = processId ∧ signal.status = .applied ∧
          ∃ step ∈ db.workflow.steps, step.processId = processId ∧
            isCompletedWait db.config process signal.signalType step = true
  paired : ∀ process ∈ db.workflow.processes, ∀ signalType,
    ((db.view process.id).appliedSignals signalType).length =
      ((db.view process.id).completedWaits db.config process signalType).length
  receipts : ∀ receipt ∈ db.delivery.receipts, receipt.appliedAt.isSome = true →
    ∃ processId, db.Marked receipt.messageId processId

def Call.fits (system : System) (call : Call) : Prop :=
  call.enabled system = true → ∀ taking ∈ call.takings system.db, taking.fits = true

instance (system : System) (call : Call) : Decidable (call.fits system) := by
  unfold Call.fits
  infer_instance

theorem step_takes {system : System} {call : Call} (steady : system.db.Steady)
    (unique : (system.db.delivery.inbox.map InboxRow.messageId).Nodup)
    (fits : call.fits system) :
    system.db.MarksTaken (call.takings system.db) (step system call).db := by
  have unchanged : ∀ takings, system.db.MarksTaken takings system.db :=
    fun takings _ _ marked => .inl marked
  by_cases enabled : call.enabled system = true
  · rw [step, if_pos enabled]
    cases returned : execDb system.db call with
    | none => exact unchanged _
    | some later => exact execDb_takes steady unique returned (fits enabled)
  · rw [step, if_neg enabled]
    exact unchanged _

section Reached

variable {config : Config} {clock : Nat → Time} {digest : String → String}

theorem reached_step (calls : List Call) (call : Call) :
    reached config clock digest (calls ++ [call]) = step (reached config clock digest calls) call :=
  reached_append calls [call]

theorem reached_applied : ∀ calls : List Call,
    Runs.Guarded step (fun system call => call.fits system) (fresh config clock digest) calls →
      ∀ messageId processId, (reached config clock digest calls).db.Marked messageId processId →
        (reached config clock digest calls).db.AppliedSignal messageId processId := by
  intro calls
  induction calls using List.reverseRecOn with
  | nil =>
      rintro _ messageId processId ⟨row, member, _⟩
      cases member
  | append_singleton done call ih =>
      intro guarded messageId processId marked
      obtain ⟨before, last⟩ := (Runs.guarded_append _ done [call]).mp guarded
      have taken := step_takes (reached_steady done) (reached_inboxIds config clock digest done)
        last.1
      rw [← reached_step] at taken
      rcases taken messageId processId marked with earlier | ⟨applied, _⟩
      · exact (ih before messageId processId earlier).kept
          (reached_signalsKept config clock digest done [call])
      · exact applied

/-- A used signal has completed a wait of its process for its type. -/
theorem Db.AppliedSignal.completed {db : Db} {messageId : String} {processId : Nat}
    (applied : db.AppliedSignal messageId processId) (steady : db.Steady)
    (balanced : (db.view processId).Balanced db.config) :
    ∃ process ∈ db.workflow.processes, process.id = processId ∧
      ∃ signal ∈ db.workflow.signals, signal.messageId = messageId ∧
        signal.processId = processId ∧ signal.status = .applied ∧
          ∃ step ∈ db.workflow.steps, step.processId = processId ∧
            isCompletedWait db.config process signal.signalType step = true := by
  obtain ⟨signal, member, same, rfl, status⟩ := applied
  obtain ⟨process, owner, owns⟩ := steady.calm.sound.rows.signalProcess member
  have count := balanced process (by rw [← owns]; exact steady.calm.sound.rows.process? owner)
    signal.signalType
  have used : signal ∈ (db.view signal.processId).appliedSignals signal.signalType :=
    List.mem_filter.mpr ⟨List.mem_filter.mpr ⟨member, by simp⟩, by simp [isApplied, status]⟩
  have some_ : 0 < ((db.view signal.processId).completedWaits db.config process
      signal.signalType).length := by
    rw [← count]
    exact List.length_pos_of_mem used
  obtain ⟨step, inside⟩ := List.exists_mem_of_length_pos some_
  obtain ⟨viewed, completed⟩ := List.mem_filter.mp inside
  obtain ⟨stepMember, stepOwns⟩ := Db.mem_view_steps.mp viewed
  exact ⟨process, owner, owns, signal, member, same, rfl, status, step, stepMember, stepOwns,
    completed⟩

theorem reached_truthful (calls : List Call)
    (guarded : Runs.Guarded step (fun system call => call.fits system) (fresh config clock digest)
      calls) : (reached config clock digest calls).db.Truthful := by
  have steady : (reached config clock digest calls).db.Steady := reached_steady calls
  have balanced := reached_balanced config clock digest calls
  refine ⟨?_, ?_, ?_⟩
  · intro messageId processId marked
    exact (reached_applied calls guarded messageId processId marked).completed steady
      (balanced processId)
  · intro process owner signalType
    exact balanced process.id process (steady.calm.sound.rows.process? owner) signalType
  · intro receipt member set
    have paired := List.mem_map_of_mem (f := Receipt.message) member
    rw [← (reached_filing config clock digest calls).paired] at paired
    obtain ⟨row, rowMember, same⟩ := List.mem_map.mp paired
    have named : row.messageId = receipt.messageId := congrArg Message.messageId same
    exact ⟨row.processId, row, rowMember, named, rfl, .inr ⟨receipt, member, rfl, set⟩⟩

/-- Where every message a call takes fits, the inbox tells the truth in every state, and a message
that its process does not wait for when it is taken stays as it was. -/
theorem inbox_tells_truth (config : Config) (clock : Nat → Time) (digest : String → String)
    (calls : List Call)
    (fits : Runs.Guarded step (fun system call => call.fits system) (fresh config clock digest)
      calls) :
    (∀ done, done <+: calls → (reached config clock digest done).db.Truthful) ∧
      ∀ done call, done ++ [call] <+: calls → ∀ messageId processId,
        (reached config clock digest (done ++ [call])).db.Marked messageId processId →
          (reached config clock digest done).db.Marked messageId processId ∨
            ∃ before row, Taking.message before row ∈
                call.takings (reached config clock digest done).db ∧ row.messageId = messageId ∧
                  ∃ process step definition, before.Awaits row process step definition := by
  have earlier : ∀ done, done <+: calls → Runs.Guarded step
      (fun system call => call.fits system) (fresh config clock digest) done := by
    rintro done ⟨rest, rfl⟩
    exact ((Runs.guarded_append _ done rest).mp fits).1
  refine ⟨fun done before => reached_truthful done (earlier done before), ?_⟩
  intro done call before messageId processId marked
  obtain ⟨_, last⟩ := (Runs.guarded_append _ done [call]).mp (earlier _ before)
  have taken := step_takes (reached_steady done) (reached_inboxIds config clock digest done) last.1
  rw [← reached_step] at taken
  rcases taken messageId processId marked with kept | ⟨_, tables, row, member, same, awaited⟩
  · exact .inl kept
  · exact .inr ⟨tables, row, member, same, (Db.reconcilable_iff.mp awaited).2⟩

end Reached

theorem inbox_tells_truth_receipt :
    (seeded (Seed.prepared ++ [Seed.receipt "first" (uuidText 10) "COMPLETED",
      .reconcileInbox (some 100) fun _ => false])).db.Truthful :=
  (inbox_tells_truth Seed.config (fun tick => (tick : Int)) id
    (Seed.prepared ++ [Seed.receipt "first" (uuidText 10) "COMPLETED",
      .reconcileInbox (some 100) fun _ => false]) (by decide +kernel)).1 _ (List.prefix_refl _)

/-- The second receipt of a batch is marked, and its signal is stored for a wait still to come. -/
theorem second_receipt_marked : ¬ ∀ calls : List Call, (seeded calls).db.Truthful := by
  intro truthful
  have shown : ((seeded Seed.disputed).db.delivery.inbox.any fun row =>
        row.messageId = "second" ∧ row.processId = 1 ∧ row.state = .applied) = true ∧
      ((seeded Seed.disputed).db.workflow.signals.all fun signal =>
        signal.messageId = "second" → signal.status = .accepted) = true := by
    decide +kernel
  obtain ⟨row, member, columns⟩ := List.any_eq_true.mp shown.1
  simp only [decide_eq_true_eq] at columns
  obtain ⟨_, _, _, signal, stored, same, _, status, _⟩ := (truthful Seed.disputed).applied "second" 1
    ⟨row, member, columns.1, columns.2.1, .inl columns.2.2⟩
  have accepted := List.all_eq_true.mp shown.2 signal stored
  simp [same, status] at accepted

end PaymentWorkflow
