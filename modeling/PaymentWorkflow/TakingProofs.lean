import PaymentWorkflow.TakingCore
import PaymentWorkflow.AcceptProofs
import PaymentWorkflow.SignalProofs

/-! A message is marked APPLIED with its signal, where its process waits for it. -/

namespace PaymentWorkflow

def Db.AppliedSignal (db : Db) (messageId : String) (processId : Nat) : Prop :=
  ∃ signal ∈ db.workflow.signals, signal.messageId = messageId ∧ signal.processId = processId ∧
    signal.status = .applied

def Db.Marked (db : Db) (messageId : String) (processId : Nat) : Prop :=
  ∃ row ∈ db.delivery.inbox, row.messageId = messageId ∧ row.processId = processId ∧
    (row.state = .applied ∨ ∃ receipt ∈ db.delivery.receipts, receipt.messageId = messageId ∧
      receipt.appliedAt.isSome = true)

def Db.MarksTaken (takings : List Taking) (db later : Db) : Prop :=
  ∀ messageId processId, later.Marked messageId processId → db.Marked messageId processId ∨
    later.AppliedSignal messageId processId ∧ ∃ before row, Taking.message before row ∈ takings ∧
      row.messageId = messageId ∧ before.reconcilable row = true

section Marks

variable {first second third db later : Db} {takings others : List Taking}

theorem Db.AppliedSignal.kept {messageId : String} {processId : Nat}
    (applied : db.AppliedSignal messageId processId) (kept : SignalsKept db later) :
    later.AppliedSignal messageId processId := by
  obtain ⟨signal, member, same, owns, status⟩ := applied
  rcases kept signal member with inside | ⟨accepted, _⟩
  · exact ⟨signal, inside, same, owns, status⟩
  · rw [status] at accepted
    cases accepted

theorem Db.Marked.congr {messageId : String} {processId : Nat}
    (inbox : later.delivery.inbox = db.delivery.inbox)
    (receipts : later.delivery.receipts = db.delivery.receipts)
    (marked : later.Marked messageId processId) : db.Marked messageId processId := by
  simpa only [Db.Marked, inbox, receipts] using marked

theorem Db.MarksTaken.mono (taken : first.MarksTaken takings second)
    (more : ∀ taking ∈ takings, taking ∈ others) : first.MarksTaken others second := by
  intro messageId processId marked
  rcases taken messageId processId marked with before | ⟨applied, tables, row, member, rest⟩
  · exact .inl before
  · exact .inr ⟨applied, tables, row, more _ member, rest⟩

theorem Db.MarksTaken.trans (left : first.MarksTaken takings second)
    (right : second.MarksTaken others third) (kept : SignalsKept second third) :
    first.MarksTaken (takings ++ others) third := by
  intro messageId processId marked
  rcases right messageId processId marked with before | ⟨applied, tables, row, member, rest⟩
  · rcases left messageId processId before with earlier | ⟨applied, tables, row, member, rest⟩
    · exact .inl earlier
    · exact .inr ⟨applied.kept kept, tables, row, List.mem_append_left _ member, rest⟩
  · exact .inr ⟨applied, tables, row, List.mem_append_right _ member, rest⟩

theorem Db.MarksTaken.after (right : second.MarksTaken takings third)
    (delivery : second.delivery = first.delivery) : first.MarksTaken takings third := by
  intro messageId processId marked
  exact (right messageId processId marked).imp_left
    (Db.Marked.congr (by rw [delivery]) (by rw [delivery]))

theorem markApplied_marked {messageId other : String} {processId : Nat}
    (marked : (db.markApplied messageId).Marked other processId) :
    db.Marked other processId ∨ other = messageId ∧ ∃ row ∈ db.delivery.inbox,
      row.messageId = messageId ∧ row.processId = processId := by
  obtain ⟨row, member, same, owns, applied⟩ := marked
  obtain ⟨old, oldMember, rfl⟩ := Table.mem_update.mp member
  by_cases hit : old.messageId = messageId
  · simp only [hit, decide_true, if_true] at same owns
    exact .inr ⟨same.symm, old, oldMember, hit, owns⟩
  · simp only [hit, decide_false, Bool.false_eq_true, if_false] at same owns applied
    refine .inl ⟨old, oldMember, same, owns, applied.imp_right ?_⟩
    rintro ⟨receipt, inside, receiptSame, set⟩
    obtain ⟨before, beforeMember, rfl⟩ := Table.mem_update.mp inside
    have spared : before.messageId ≠ messageId := by
      intro changed
      simp only [changed, decide_true, if_true] at receiptSame
      exact hit (same.trans receiptSame.symm)
    simp only [spared, decide_false, Bool.false_eq_true, if_false] at receiptSame set
    exact ⟨before, beforeMember, receiptSame, set⟩

theorem EngineMove.inboxOwners {processId : Nat} (move : EngineMove processId db later) :
    later.delivery.inbox.map (fun row => (row.messageId, row.processId)) =
      db.delivery.inbox.map fun row => (row.messageId, row.processId) := by
  cases move with
  | applied =>
      rw [Db.markApplied_delivery_inbox, Table.map_update]
      exact fun _ => rfl
  | started | signalled | finished | decided => exact congrArg _ (by rw [Db.placeStep_delivery]; rfl)
  | _ => rfl

theorem EngineMoves.inboxOwners {processId : Nat} (moves : EngineMoves processId db later) :
    later.delivery.inbox.map (fun row => (row.messageId, row.processId)) =
      db.delivery.inbox.map fun row => (row.messageId, row.processId) := by
  induction moves with
  | refl => rfl
  | tail _ move ih => exact move.inboxOwners.trans ih

theorem EngineMoves.inboxIds {processId : Nat} (moves : EngineMoves processId db later) :
    later.delivery.inbox.map InboxRow.messageId = db.delivery.inbox.map InboxRow.messageId := by
  simpa only [List.map_map, Function.comp_def] using congrArg (List.map Prod.fst) moves.inboxOwners

theorem EngineMoves.signalsKept {processId : Nat} (moves : EngineMoves processId db later)
    (sound : db.Sound) : SignalsKept db later := by
  induction moves with
  | refl => exact .of_mem fun _ member => member
  | tail earlier move ih => exact ih.trans (move.signalsKept (EngineMoves.sound earlier sound))

end Marks

/-! A message that fits. -/

structure Db.Awaits (db : Db) (message : InboxRow) (process : Process) (step : StepInstance)
    (definition : StepDefinition) : Prop where
  owner : process ∈ db.workflow.processes
  named : process.id = message.processId
  member : step ∈ db.workflow.steps
  owns : step.processId = process.id
  waits : step.stepType = .waitSignal
  waiting : step.state = .waiting
  defined : db.config.stepDefinition? process.flowName process.flowVersion step.stepKey =
    some definition
  type : definition.params.signalType = some message.signalType

theorem Db.reconcilable_iff {db : Db} {message : InboxRow} : db.reconcilable message = true ↔
    message.state = .received ∧
      ∃ process step definition, db.Awaits message process step definition := by
  simp only [Db.reconcilable, decide_eq_true_eq, List.any_eq_true, Option.any_eq_true]
  refine and_congr_right fun _ => ?_
  constructor
  · rintro ⟨process, owner, named, step, member, owns, waits, waiting, definition, defined, type⟩
    exact ⟨process, step, definition, owner, named, member, owns.trans named.symm, waits, waiting,
      defined, type⟩
  · rintro ⟨process, step, definition, awaits⟩
    exact ⟨process, awaits.owner, awaits.named, step, awaits.member,
      awaits.owns.trans awaits.named, awaits.waits, awaits.waiting, definition, awaits.defined,
      awaits.type⟩

theorem Db.sole_spec {db : Db} {message : InboxRow} (sole : db.sole message = true) {row : Signal}
    (member : row ∈ db.workflow.signals)
    (same : sameSignal row message.processId message.signalType
      (db.digest message.payload.render) = true) : row.messageId = message.messageId := by
  have either := List.all_eq_true.mp sole row member
  simpa [same] using either

section Awaits

variable {db : Db} {message : InboxRow} {process : Process} {step : StepInstance}
  {definition : StepDefinition}

theorem Db.Awaits.live (awaits : db.Awaits message process step definition) :
    step ∈ (db.view process.id).liveSteps :=
  List.mem_filter.mpr ⟨Db.mem_view_steps.mpr ⟨awaits.member, awaits.owns⟩, by rw [awaits.waiting]; rfl⟩

theorem Db.Awaits.unready (awaits : db.Awaits message process step definition) (sound : db.Sound)
    (quiet : (db.view process.id).Quiet db.config) :
    db.readySignal? process.id (some message.signalType) = none := by
  rw [Db.readySignal?_eq_none, ← awaits.type]
  exact quiet process (sound.rows.process? awaits.owner) step awaits.live awaits.waits definition
    awaits.defined

theorem Db.Awaits.waitingStep? (awaits : db.Awaits message process step definition)
    (sound : db.Sound) : db.waitingStep? process.id = some step := by
  have only := ((sound.settled process.id).of_waiting (sound.rows.process? awaits.owner)
    (Db.mem_view_steps.mpr ⟨awaits.member, awaits.owns⟩) awaits.waiting
    (by rw [awaits.waits]; simp)).2.1
  cases found : db.waitingStep? process.id with
  | none =>
      have none := Table.first_eq_none.mp found
      have inside : step ∈ ([] : List StepInstance) := by
        rw [← none]
        simp [awaits.member, awaits.owns, awaits.waits, awaits.waiting]
      cases inside
  | some other =>
      have facts := Table.first_mem found
      simp only [List.mem_filter, decide_eq_true_eq] at facts
      obtain ⟨member, owns, _, waiting⟩ := facts
      have inside : other ∈ (db.view process.id).liveSteps :=
        List.mem_filter.mpr ⟨Db.mem_view_steps.mpr ⟨member, owns⟩, by rw [waiting]; rfl⟩
      rw [only, List.mem_singleton] at inside
      rw [inside]

theorem readySignal?_stored {processId : Nat} {signalType messageId bodyHash : String}
    (unready : db.readySignal? processId (some signalType) = none) :
    ((db.insertSignal messageId processId signalType bodyHash).insertEvent processId none
      .signalAccepted).readySignal? processId (some signalType) =
        some ⟨messageId, processId, signalType, bodyHash, .accepted, db.now⟩ := by
  rw [Db.readySignal?, Table.first_eq_none] at unready
  rw [Db.readySignal?, Db.insertEvent_workflow_signals, Db.insertSignal_workflow_signals,
    List.filter_append, unready, List.nil_append, List.filter_cons_of_pos (by simp)]
  rfl

end Awaits

/-! The functions on the cycle through `_enter_step`. -/

def Db.Takes (takings : List Taking) (db later : Db) : Prop :=
  (∀ taking ∈ takings, taking.fits = true) → db.MarksTaken takings later

theorem Db.Takes.of_same {takings : List Taking} {db later : Db}
    (inbox : later.delivery.inbox = db.delivery.inbox)
    (receipts : later.delivery.receipts = db.delivery.receipts) : db.Takes takings later :=
  fun _ _ _ marked => .inl (marked.congr inbox receipts)

theorem Db.Takes.of_delivery {takings : List Taking} {db later : Db}
    (same : later.delivery = db.delivery) : db.Takes takings later :=
  .of_same (by rw [same]) (by rw [same])

theorem Db.Takes.refl (takings : List Taking) (db : Db) : db.Takes takings db := .of_delivery rfl

theorem Db.Takes.after {takings : List Taking} {first second third : Db}
    (takes : second.Takes takings third) (delivery : second.delivery = first.delivery) :
    first.Takes takings third :=
  fun fits => (takes fits).after delivery

theorem Db.Takes.cons {takings : List Taking} {first second : Db}
    (takes : first.Takes takings second) (taking : Taking) :
    first.Takes (taking :: takings) second := by
  intro fits
  exact (takes fun other member => fits other (List.mem_cons_of_mem _ member)).mono
    fun other => List.mem_cons_of_mem taking

theorem Db.Takes.trans {takings others : List Taking} {first second third : Db}
    (left : first.Takes takings second) (right : second.Takes others third)
    (kept : SignalsKept second third) : first.Takes (takings ++ others) third := by
  intro fits
  refine Db.MarksTaken.trans (left fun taking member => ?_) (right fun taking member => ?_) kept
  · exact fits taking (List.mem_append_left _ member)
  · exact fits taking (List.mem_append_right _ member)

def EntersTaking (enter : EnterStep) (entering : EntryTakings) : Prop :=
  ∀ (db : Db) (processId : Nat) (stepKey : String) (later : Db),
    enter db processId stepKey = .ok later → db.Rows →
    (db.delivery.inbox.map InboxRow.messageId).Nodup →
    (∀ process definition, db.workflow.process? processId = some process →
      db.config.stepDefinition? process.flowName process.flowVersion stepKey = some definition →
        (db.placeStep processId definition).Sound) →
    db.Takes (entering db processId stepKey) later

section Recursion

variable {enter : EnterStep} {entering : EntryTakings} {db later : Db} {processId : Nat}

theorem advance_takes (inner : EntersTaking enter entering) {process : Process}
    {outcome : Option String} (rows : db.Rows)
    (unique : (db.delivery.inbox.map InboxRow.messageId).Nodup)
    (found : db.workflow.process? processId = some process)
    (placed : ∀ transition next, db.config.transition? process.flowName process.flowVersion
      process.currentStepKey outcome = some transition →
        db.config.stepDefinition? process.flowName process.flowVersion transition.toStepKey =
          some next → (db.placeStep processId next).Sound)
    (returned : advance enter db processId outcome = .ok later) :
    db.Takes (advanceTakings entering db processId outcome) later := by
  simp only [advance, found] at returned
  split at returned
  · cases returned
    exact .refl _ _
  rename_i running
  split at returned
  · cases returned
  · rename_i transition leads
    simp only [advanceTakings, found, if_neg running, leads]
    refine inner db processId transition.toStepKey later returned rows unique ?_
    intro other next otherFound defined
    obtain rfl := Option.some.inj (otherFound.symm.trans found)
    exact placed transition next leads defined

theorem applyReadySignals_takes (inner : EntersTaking enter entering) (sound : db.Sound)
    (unique : (db.delivery.inbox.map InboxRow.messageId).Nodup) {process : Process}
    {step : StepInstance} {definition : StepDefinition}
    (owner : process ∈ db.workflow.processes) (member : step ∈ db.workflow.steps)
    (owns : step.processId = process.id) (waits : step.stepType = .waitSignal)
    (waiting : step.state = .waiting)
    (defined : db.config.stepDefinition? process.flowName process.flowVersion step.stepKey =
      some definition)
    (returned : applyReadySignals enter db process.id step.id definition.params = .ok later) :
    db.Takes (readySignalsTakings entering db process.id step.id definition.params) later := by
  simp only [applyReadySignals] at returned
  split at returned
  · cases returned
    exact .refl _ _
  · rename_i signal ready
    simp only [readySignalsTakings, ready]
    have takes := @advance_takes enter entering
      (db.consumeSignal process.id step.id definition.params.outcome signal) later process.id
      inner process definition.params.outcome (Db.consumeSignal_rows sound.rows _ _ _ _) unique
      (sound.rows.process? owner) (fun transition next leads placed =>
        (EngineMove.signalled owner member owns waits waiting defined ready leads placed).sound
          sound) returned
    exact (takes.after rfl).cons _

theorem applyReadySignals_applied (enters : Enters enter) (sound : db.Sound) {process : Process}
    {step : StepInstance} {definition : StepDefinition} {signal : Signal}
    (owner : process ∈ db.workflow.processes) (member : step ∈ db.workflow.steps)
    (owns : step.processId = process.id) (waits : step.stepType = .waitSignal)
    (waiting : step.state = .waiting)
    (defined : db.config.stepDefinition? process.flowName process.flowVersion step.stepKey =
      some definition)
    (ready : db.readySignal? process.id definition.params.signalType = some signal)
    (returned : applyReadySignals enter db process.id step.id definition.params = .ok later) :
    later.AppliedSignal signal.messageId process.id := by
  simp only [applyReadySignals, ready] at returned
  obtain ⟨_, _, _, state, _⟩ := (sound.settled process.id).of_waiting (sound.rows.process? owner)
    (Db.mem_view_steps.mpr ⟨member, owns⟩) waiting (by rw [waits]; simp)
  have found : (db.consumeSignal process.id step.id definition.params.outcome
      signal).workflow.process? process.id = some process := sound.rows.process? owner
  obtain ⟨transition, next, leads, placed, reaches⟩ := advance_reaches enters found
    (by rw [state waits]; simp) returned
  have move := EngineMove.signalled owner member owns waits waiting defined ready leads placed
  have consumed : ((db.consumeSignal process.id step.id definition.params.outcome
      signal).placeStep process.id next).AppliedSignal signal.messageId process.id := by
    refine ⟨{ signal with status := .applied }, ?_, rfl, (Db.readySignal?_mem ready).2.1, rfl⟩
    rw [Db.placeStep_signals]
    exact Table.mem_update.mpr ⟨signal, (Db.readySignal?_mem ready).1, by simp⟩
  exact consumed.kept ((reaches (Db.consumeSignal_rows sound.rows _ _ _ _)
    (move.sound sound)).moves.signalsKept (move.sound sound))

theorem acceptSignal_cases {signalType messageId : String} {payload : Json} {reply : SignalReply}
    (returned : acceptSignal enter db processId signalType messageId payload =
      .ok (later, reply)) :
    (later = db ∧ ∃ existing, db.workflow.signal? messageId = some existing ∧
      sameSignal existing processId signalType (db.digest payload.render) = true) ∨
    (later = db ∧ db.workflow.signal? messageId = none ∧ (db.workflow.signals.any fun row =>
      sameSignal row processId signalType (db.digest payload.render)) = true) ∨
    (db.workflow.signal? messageId = none ∧ (db.workflow.signals.any fun row =>
      sameSignal row processId signalType (db.digest payload.render)) = false ∧
      ∃ process, db.workflow.process? processId = some process ∧
        declaresSignal db process signalType = true ∧
        afterStored enter db ((db.insertSignal messageId processId signalType
          (db.digest payload.render)).insertEvent processId none .signalAccepted) process
            signalType = .ok (later, reply)) := by
  cases known : db.workflow.signal? messageId with
  | some existing =>
      left
      simp only [acceptSignal, acceptSignalBody, known] at returned
      repeat' split at returned
      all_goals cases returned
      all_goals exact ⟨rfl, existing, rfl, by assumption⟩
  | none =>
      right
      cases stored : db.workflow.signals.any fun row =>
          sameSignal row processId signalType (db.digest payload.render) with
      | true =>
          simp only [acceptSignal, acceptSignalBody, known, stored, if_true] at returned
          repeat' split at returned
          all_goals cases returned
          all_goals exact .inl ⟨rfl, rfl, rfl⟩
      | false =>
          refine .inr ⟨rfl, rfl, ?_⟩
          simp only [acceptSignal, known, stored, Bool.false_eq_true, if_false] at returned
          split at returned
          · cases returned
          simp only [acceptSignalBody, known, stored, Bool.false_eq_true, if_false] at returned
          split at returned
          · cases returned
          split at returned
          · cases returned
          split at returned
          · cases returned
          rename_i process found
          split at returned
          · cases returned
          rename_i declared
          obtain rfl := (Table.lookup_mem found).2
          exact ⟨process, found, by simpa using declared, returned⟩

theorem afterStored_takes (inner : EntersTaking enter entering) {stored : Db}
    (pinned : db.config = stored.config) (sound : stored.Sound)
    (unique : (stored.delivery.inbox.map InboxRow.messageId).Nodup) {process : Process}
    (owner : process ∈ stored.workflow.processes) {signalType : String} {reply : SignalReply}
    (returned : afterStored enter db stored process signalType = .ok (later, reply)) :
    stored.Takes (afterStoredTakings entering stored process signalType) later := by
  simp only [afterStored, pinned] at returned
  split at returned
  · cases returned
    exact .refl _ _
  rename_i step stepFound
  obtain ⟨member, owns, waits, waiting⟩ : step ∈ stored.workflow.steps ∧
      step.processId = process.id ∧ step.stepType = .waitSignal ∧ step.state = .waiting := by
    simpa using Table.first_mem stepFound
  split at returned
  · cases returned
    exact .refl _ _
  rename_i definition defined
  split at returned
  · rename_i type
    simp only [afterStoredTakings, stepFound, defined, if_pos type]
    obtain ⟨applied, consumed, rest⟩ := Runs.bind_eq_ok.mp returned
    cases rest
    exact applyReadySignals_takes inner sound unique owner member owns waits waiting defined
      consumed
  · cases returned
    exact .refl _ _

theorem acceptSignal_takes (inner : EntersTaking enter entering) (sound : db.Sound)
    (unique : (db.delivery.inbox.map InboxRow.messageId).Nodup)
    {signalType messageId : String} {payload : Json} {reply : SignalReply}
    (returned : acceptSignal enter db processId signalType messageId payload =
      .ok (later, reply)) :
    db.Takes (acceptSignalTakings entering db processId signalType messageId payload) later := by
  rcases acceptSignal_cases returned with
    ⟨rfl, _⟩ | ⟨rfl, _⟩ | ⟨fresh, unused, process, found, declared, after⟩
  · exact .refl _ _
  · exact .refl _ _
  · obtain ⟨owner, rfl⟩ := Table.lookup_mem found
    simp only [acceptSignalTakings, fresh, unused, Option.isSome_none, Bool.false_eq_true, or_self,
      if_false, found]
    have takes := afterStored_takes inner rfl
      ((EngineMove.stored owner declared fresh unused).sound sound) unique owner after
    exact takes.after rfl

/-- The signal of a message its process waits for is applied, where it is the only one. -/
theorem acceptSignal_applied (enters : Enters enter) (sound : db.Sound) {message : InboxRow}
    (quiet : (db.view message.processId).Quiet db.config) {reply : SignalReply}
    (awaited : db.reconcilable message = true) (sole : db.sole message = true)
    (returned : acceptSignal enter db message.processId message.signalType message.messageId
      message.payload = .ok (later, reply)) :
    later.AppliedSignal message.messageId message.processId := by
  obtain ⟨_, process, step, definition, awaits⟩ := Db.reconcilable_iff.mp awaited
  have named := awaits.named
  rw [← named] at quiet returned ⊢
  have unready := awaits.unready sound quiet
  rcases acceptSignal_cases returned with ⟨rfl, existing, known, same⟩ | ⟨rfl, fresh, stored⟩ |
    ⟨fresh, unused, other, found, declared, after⟩
  · -- the stored signal of the message is one the waiting step has left behind
    obtain ⟨member, id⟩ := Table.lookup_mem known
    simp only [sameSignal, decide_eq_true_eq] at same
    refine ⟨existing, member, id, same.1, ?_⟩
    cases status : existing.status with
    | applied => rfl
    | accepted =>
        have none := Table.first_eq_none.mp unready
        have inside : existing ∈ ([] : List Signal) := by
          rw [← none]
          simp [member, same.1, same.2.1, status]
        cases inside
  · obtain ⟨row, member, same⟩ := List.any_eq_true.mp stored
    rw [named] at same
    exact absurd (Db.sole_spec sole member same) (Table.lookup_eq_none.mp fresh row member)
  · obtain rfl := Option.some.inj ((sound.rows.process? awaits.owner).symm.trans found)
    have move := EngineMove.stored awaits.owner declared fresh unused
    have waiting : ((db.insertSignal message.messageId process.id message.signalType
        (db.digest message.payload.render)).insertEvent process.id none
          .signalAccepted).waitingStep? process.id = some step := awaits.waitingStep? sound
    simp only [afterStored, waiting, awaits.defined, awaits.type, if_true] at after
    obtain ⟨applied, consumed, rest⟩ := Runs.bind_eq_ok.mp after
    cases rest
    have ready := @readySignal?_stored db process.id message.signalType message.messageId
      (db.digest message.payload.render) unready
    exact applyReadySignals_applied enters (move.sound sound) awaits.owner awaits.member awaits.owns
      awaits.waits awaits.waiting awaits.defined (by rw [awaits.type]; exact ready) consumed

theorem message_takes (enters : Enters enter) (inner : EntersTaking enter entering)
    (sound : db.Sound) (unique : (db.delivery.inbox.map InboxRow.messageId).Nodup)
    {message : InboxRow} (addressed : ∀ row ∈ db.delivery.inbox,
      row.messageId = message.messageId → row.processId = message.processId)
    (quiet : (db.view message.processId).Quiet db.config) {reply : SignalReply}
    (returned : acceptSignal enter db message.processId message.signalType message.messageId
      message.payload = .ok (later, reply)) :
    db.Takes (messageTakings entering db message) (later.markApplied message.messageId) := by
  intro fits
  have marks := (acceptSignal_takes inner sound unique returned fun taking member =>
    fits taking (List.mem_cons_of_mem _ member)).mono fun taking member =>
      List.mem_cons_of_mem (.message db message) member
  have owners := (acceptSignal_reaches enters sound quiet returned).moves.inboxOwners
  intro messageId processId marked
  rcases markApplied_marked marked with before | ⟨rfl, row, member, same, owns⟩
  · exact marks messageId processId before
  have pair := List.mem_map_of_mem (f := fun row : InboxRow => (row.messageId, row.processId))
    member
  rw [owners] at pair
  obtain ⟨old, oldMember, equal⟩ := List.mem_map.mp pair
  obtain ⟨oldSame, oldOwns⟩ := Prod.mk.inj equal
  obtain rfl : message.processId = processId :=
    (addressed old oldMember (oldSame.trans same)).symm.trans (oldOwns.trans owns)
  have first := fits (.message db message) List.mem_cons_self
  simp only [Taking.fits, Bool.or_eq_true, Bool.and_eq_true] at first
  rcases first with repeated | ⟨awaited, sole⟩
  · obtain ⟨again, againMember, applied⟩ := List.any_eq_true.mp repeated
    simp only [decide_eq_true_eq] at applied
    exact .inl ⟨again, againMember, applied.1, addressed again againMember applied.1,
      .inl applied.2⟩
  · have applied := acceptSignal_applied enters sound quiet awaited sole returned
    exact .inr ⟨applied, db, message, List.mem_cons_self, rfl, awaited⟩

theorem applyInboxForProcess_takes (enters : Enters enter)
    (inner : EntersTaking enter entering) (sound : db.Sound)
    (unique : (db.delivery.inbox.map InboxRow.messageId).Nodup)
    (quiet : (db.view processId).Quiet db.config) {signalType : Option String}
    (returned : applyInboxForProcess enter db processId signalType = .ok later) :
    db.Takes (inboxTakings entering db processId signalType) later := by
  simp only [applyInboxForProcess] at returned
  split at returned
  · cases returned
    exact .refl _ _
  · rename_i message received
    simp only [inboxTakings, received]
    have chosen := Table.first_mem received
    simp only [List.mem_filter, decide_eq_true_eq] at chosen
    obtain ⟨member, rfl, _⟩ := chosen
    obtain ⟨⟨accepted, reply⟩, first, rest⟩ := Runs.bind_eq_ok.mp returned
    cases rest
    refine message_takes enters inner sound unique ?_ quiet first
    intro row rowMember same
    rw [Table.key_unique unique rowMember member same]

theorem enterWaiting_takes (enters : Enters enter) (inner : EntersTaking enter entering)
    (sound : db.Sound) (unique : (db.delivery.inbox.map InboxRow.messageId).Nodup)
    {process : Process} {step : StepInstance} {definition : StepDefinition}
    (owner : process ∈ db.workflow.processes) (member : step ∈ db.workflow.steps)
    (owns : step.processId = process.id) (waits : step.stepType = .waitSignal)
    (waiting : step.state = .waiting)
    (defined : db.config.stepDefinition? process.flowName process.flowVersion step.stepKey =
      some definition) {ready : Db}
    (applied : applyReadySignals enter db process.id step.id definition.params = .ok ready)
    (returned : applyInboxForProcess enter ready process.id definition.params.signalType =
      .ok later) :
    db.Takes (readySignalsTakings entering db process.id step.id definition.params ++
      inboxTakings entering ready process.id definition.params.signalType) later := by
  have reaches := applyReadySignals_reaches enters sound owner member owns waits waiting defined
    applied
  have readySound := reaches.sound sound
  have readyUnique : (ready.delivery.inbox.map InboxRow.messageId).Nodup := by
    rw [reaches.moves.inboxIds]
    exact unique
  have first := applyReadySignals_takes inner sound unique owner member owns waits waiting defined
    applied
  have rest := applyInboxForProcess_takes enters inner readySound readyUnique reaches.quiet
    returned
  exact first.trans rest
    ((applyInboxForProcess_reaches enters readySound reaches.quiet returned).moves.signalsKept
      readySound)

theorem enterStepBody_takes (enters : Enters enter) (inner : EntersTaking enter entering) :
    EntersTaking (enterStepBody enter) (enterStepTakingsBody enter entering) := by
  intro db processId stepKey later returned rows unique sound
  simp only [enterStepBody] at returned
  split at returned
  · cases returned
  rename_i process found
  split at returned
  · cases returned
  rename_i definition defined
  have placedSound := sound process definition found defined
  split at returned
  · rename_i waits
    obtain ⟨ready, applied, rest⟩ := Runs.bind_eq_ok.mp returned
    simp only [enterStepTakingsBody, found, defined, waits, applied]
    obtain ⟨owner, rfl⟩ := Table.lookup_mem found
    have placedOwner : Db.placedProcess definition process ∈
        (db.placeStep process.id definition).workflow.processes := by
      rw [Db.placeStep_processes, Table.mem_update]
      exact ⟨process, owner, by simp⟩
    have placedMember : db.placedStep process.id definition ∈
        (db.placeStep process.id definition).workflow.steps := by
      rw [Db.placeStep_steps _ _ _ rows.stepBound]
      simp
    have waiting : (db.placedStep process.id definition).state = .waiting := by
      simp [Db.placedStep, waits, StepType.entryState]
    have placedDefined : (db.placeStep process.id definition).config.stepDefinition?
        (Db.placedProcess definition process).flowName
        (Db.placedProcess definition process).flowVersion
        (db.placedStep process.id definition).stepKey = some definition := by
      rw [Db.placeStep_config]
      show db.config.stepDefinition? _ _ definition.stepKey = _
      rw [(stepDefinition?_key defined).2.2]
      exact defined
    have takes := @enterWaiting_takes enter entering (db.placeStep process.id definition) later
      enters inner placedSound (by rw [Db.placeStep_delivery]; exact unique)
      (Db.placedProcess definition process) (db.placedStep process.id definition) definition
      placedOwner placedMember rfl waits waiting placedDefined ready applied rest
    exact takes.after (by rw [Db.placeStep_delivery])
  · cases returned
    exact .of_delivery (by rw [Db.placeStep_delivery])

theorem enterStep_takes : ∀ depth, EntersTaking (enterStep depth) (enterStepTakings depth) := by
  intro depth
  induction depth with
  | zero =>
      intro db processId stepKey later returned
      simp [enterStep] at returned
  | succ depth ih => exact enterStepBody_takes (enterStep_enters depth) ih

end Recursion

end PaymentWorkflow
