import PaymentWorkflow.SystemRuns

/-! No signal is lost and none is applied twice. -/

namespace PaymentWorkflow

/-! What becomes of a stored signal. -/

def SignalsKept (db later : Db) : Prop :=
  ∀ signal ∈ db.workflow.signals, signal ∈ later.workflow.signals ∨
    (signal.status = .accepted ∧ { signal with status := .applied } ∈ later.workflow.signals)

theorem SignalsKept.of_mem {db later : Db}
    (kept : ∀ signal ∈ db.workflow.signals, signal ∈ later.workflow.signals) :
    SignalsKept db later := fun signal member => .inl (kept signal member)

theorem SignalsKept.of_workflow {db later : Db} (same : later.workflow = db.workflow) :
    SignalsKept db later := .of_mem fun _ member => same ▸ member

theorem SignalsKept.trans {first second third : Db} (left : SignalsKept first second)
    (right : SignalsKept second third) : SignalsKept first third := by
  intro signal member
  rcases left signal member with same | ⟨accepted, applied⟩
  · exact right signal same
  · rcases right _ applied with same | ⟨again, _⟩
    · exact .inr ⟨accepted, same⟩
    · simp at again

theorem EngineMove.signalsKept {processId : Nat} {db later : Db}
    (move : EngineMove processId db later) (sound : db.Sound) : SignalsKept db later := by
  cases move with
  | @signalled _ process step definition next readySignal transition owner member owns waits
      waiting defined ready leads placed =>
      intro signal signalMember
      obtain ⟨readyMember, _, _, accepted⟩ := Db.readySignal?_mem ready
      simp only [Db.placeStep_signals, Db.consumeSignal, Db.insertEvent_workflow_signals,
        Db.updateStep_workflow_signals, Db.updateSignal_workflow_signals, Table.mem_update]
      by_cases same : signal.messageId = readySignal.messageId
      · obtain rfl := Table.key_unique sound.rows.messageIds signalMember readyMember same
        exact .inr ⟨accepted, signal, signalMember, by simp⟩
      · exact .inl ⟨signal, signalMember, by simp [same]⟩
  | stored => exact .of_mem fun signal member => List.mem_append_left _ member
  | started | finished | decided =>
      apply SignalsKept.of_mem
      intro signal member
      rw [Db.placeStep_signals]
      exact member
  | _ => exact .of_mem fun signal member => member

theorem reached_signalsKept (config : Config) (clock : Nat → Time) (digest : String → String)
    (calls more : List Call) :
    SignalsKept (reached config clock digest calls).db
      (reached config clock digest (calls ++ more)).db :=
  SystemMoves.invariant (SignalsKept (reached config clock digest calls).db)
    (fun sound _ kept move => kept.trans (move.signalsKept sound))
    (fun _ _ kept move => kept.trans (.of_workflow move.workflow_eq))
    (fun _ _ kept move => kept.trans (.of_workflow move.workflow_eq))
    (reached_moves calls more) (reached_steady calls) (.of_mem fun _ member => member)

/-! Applied signals and completed waits, counted for one process. -/

def isCompletedWait (config : Config) (process : Process) (signalType : String)
    (step : StepInstance) : Bool :=
  step.stepType = .waitSignal ∧ step.state = .completed ∧
    (config.stepDefinition? process.flowName process.flowVersion step.stepKey).any
      fun definition => definition.params.signalType = some signalType

def isApplied (signalType : String) (signal : Signal) : Bool :=
  signal.signalType = signalType ∧ signal.status = .applied

theorem isCompletedWait_of_not {config : Config} {process : Process} {signalType : String}
    {step : StepInstance} (other : step.stepType ≠ .waitSignal ∨ step.state ≠ .completed) :
    isCompletedWait config process signalType step = false := by
  simp only [isCompletedWait, decide_eq_false_iff_not, not_and]
  intro waits completed
  rcases other with different | different
  · exact absurd waits different
  · exact absurd completed different

namespace View

def appliedSignals (view : View) (signalType : String) : List Signal :=
  view.signals.filter (isApplied signalType)

def completedWaits (config : Config) (view : View) (process : Process) (signalType : String) :
    List StepInstance :=
  view.steps.filter (isCompletedWait config process signalType)

/-- Each completed wait has used up one signal of its type, and nothing else has. -/
def Balanced (config : Config) (view : View) : Prop :=
  ∀ process, view.process = some process → ∀ signalType,
    (view.appliedSignals signalType).length =
      (view.completedWaits config process signalType).length

def SamePin (view later : View) : Prop :=
  ∀ process, later.process = some process → ∃ before, view.process = some before ∧
    before.flowName = process.flowName ∧ before.flowVersion = process.flowVersion

theorem SamePin.of_eq {view later : View} (same : later.process = view.process) :
    SamePin view later :=
  fun process found => ⟨process, same ▸ found, rfl, rfl⟩

theorem SamePin.of_map {view later : View} {change : Process → Process}
    (same : later.process = view.process.map change)
    (stable : ∀ row, (change row).flowName = row.flowName ∧
      (change row).flowVersion = row.flowVersion) : SamePin view later := by
  intro process found
  rw [same, Option.map_eq_some_iff] at found
  obtain ⟨before, beforeFound, rfl⟩ := found
  exact ⟨before, beforeFound, (stable before).1.symm, (stable before).2.symm⟩

theorem completedWaits_congr {config : Config} {view : View} {left right : Process}
    (flow : left.flowName = right.flowName) (version : left.flowVersion = right.flowVersion)
    (signalType : String) :
    view.completedWaits config left signalType = view.completedWaits config right signalType := by
  simp only [completedWaits]
  congr 1
  funext row
  simp only [isCompletedWait, flow, version]

/-- A step that is no wait leaves the count alone, whatever becomes of it. -/
theorem completedWaits_updateSteps {config : Config} {view : View} {process : Process}
    {signalType : String} {id : Nat} {change : StepInstance → StepInstance}
    (stable : ∀ row, (change row).stepType = row.stepType)
    (other : ∀ row ∈ view.steps, row.id = id → row.stepType ≠ .waitSignal) :
    (view.updateSteps id change).completedWaits config process signalType =
      view.completedWaits config process signalType := by
  simp only [completedWaits, updateSteps]
  apply Table.filter_update_away
  · intro row member matched
    exact isCompletedWait_of_not (.inl (other row member (by simpa using matched)))
  · intro row member matched
    refine isCompletedWait_of_not (.inl ?_)
    rw [stable]
    exact other row member (by simpa using matched)

theorem Balanced.transfer {config : Config} {view later : View} (balanced : view.Balanced config)
    (pin : SamePin view later) (signals : later.signals = view.signals)
    (waits : ∀ process signalType, later.completedWaits config process signalType =
      view.completedWaits config process signalType) : later.Balanced config := by
  intro process found signalType
  obtain ⟨before, beforeFound, flow, version⟩ := pin process found
  have same := balanced before beforeFound signalType
  rw [waits, appliedSignals, signals, ← completedWaits_congr flow version]
  exact same

theorem balanced_place {config : Config} {view : View} (balanced : view.Balanced config)
    (db : Db) (processId : Nat) (definition : StepDefinition) (jobs : List Job)
    (events : List WorkflowEvent) :
    (view.place definition (db.placedStep processId definition) jobs events).Balanced config := by
  refine balanced.transfer (.of_map rfl fun _ => ⟨rfl, rfl⟩) rfl ?_
  intro process signalType
  have fresh : isCompletedWait config process signalType (db.placedStep processId definition) =
      false := by
    apply isCompletedWait_of_not
    by_cases waits : definition.stepType = .waitSignal
    · exact .inr (by simp [Db.placedStep, waits, StepType.entryState])
    · exact .inl waits
  simp [completedWaits, place, fresh]

end View

theorem Db.Sound.not_wait {db : Db} (sound : db.Sound) {step : StepInstance} {processId : Nat}
    (member : step ∈ db.workflow.steps) (kind : step.stepType ≠ .waitSignal) :
    ∀ row ∈ (db.view processId).steps, row.id = step.id → row.stepType ≠ .waitSignal := by
  intro row rowMember same
  rw [Table.key_unique sound.rows.stepIds (Db.mem_view_steps.mp rowMember).1 member same]
  exact kind

theorem consumeSignal_balanced {db : Db} (sound : db.Sound) {process : Process}
    {step : StepInstance} {definition : StepDefinition} {signal : Signal}
    (balanced : (db.view process.id).Balanced db.config)
    (owner : process ∈ db.workflow.processes) (member : step ∈ db.workflow.steps)
    (owns : step.processId = process.id) (waits : step.stepType = .waitSignal)
    (waiting : step.state = .waiting)
    (defined : db.config.stepDefinition? process.flowName process.flowVersion step.stepKey =
      some definition)
    (ready : db.readySignal? process.id definition.params.signalType = some signal) :
    ((db.consumeSignal process.id step.id definition.params.outcome signal).view
      process.id).Balanced db.config := by
  obtain ⟨signalMember, signalOwns, type, accepted⟩ := Db.readySignal?_mem ready
  rw [Db.view_consumeSignal]
  intro other found signalType
  have pin : other = process := Option.some.inj (found.symm.trans (sound.rows.process? owner))
  subst pin
  have before := balanced other (sound.rows.process? owner) signalType
  have messageIds : ((db.view other.id).signals.map Signal.messageId).Nodup :=
    sound.rows.messageIds.sublist (List.filter_sublist.map _)
  have stepIds : ((db.view other.id).steps.map StepInstance.id).Nodup :=
    sound.rows.stepIds.sublist (List.filter_sublist.map _)
  have inSignals : signal ∈ (db.view other.id).signals :=
    Db.mem_view_signals.mpr ⟨signalMember, signalOwns⟩
  have inSteps : step ∈ (db.view other.id).steps := Db.mem_view_steps.mpr ⟨member, owns⟩
  simp only [View.appliedSignals, View.completedWaits, View.log, View.updateSteps,
    View.updateSignals] at before ⊢
  by_cases same : signal.signalType = signalType
  · rw [Table.length_filter_update_enter messageIds inSignals, before]
    · refine (Table.length_filter_update_enter stepIds inSteps ?_ ?_).symm
      · exact isCompletedWait_of_not (.inr (by rw [waiting]; simp))
      · simp [isCompletedWait, waits, defined, ← type, same]
    · simp [isApplied, accepted]
    · simp [isApplied, same]
  · rw [Table.filter_update_away, before, Table.filter_update_away]
    · intro row rowMember matched
      have equal := Table.key_unique stepIds rowMember inSteps (by simpa using matched)
      exact isCompletedWait_of_not (.inr (by rw [equal, waiting]; simp))
    · intro row rowMember matched
      have equal := Table.key_unique stepIds rowMember inSteps (by simpa using matched)
      simp [isCompletedWait, equal, defined, ← type, same]
    · intro row rowMember matched
      have equal := Table.key_unique messageIds rowMember inSignals (by simpa using matched)
      simp [isApplied, equal, accepted]
    · intro row rowMember matched
      have equal := Table.key_unique messageIds rowMember inSignals (by simpa using matched)
      simp [isApplied, equal, same]

theorem buryJob_balanced {db : Db} (sound : db.Sound) {job : Job}
    (balanced : (db.view job.processId).Balanced db.config) (member : job ∈ db.workflow.jobs)
    (live : job.state.live = true) :
    ((db.buryJob job).view job.processId).Balanced db.config := by
  obtain ⟨_, _, _, step, stepMember, runs, _, _, _, automatic, _⟩ := sound.running member live
  rw [Db.view_buryJob, if_pos rfl, ← runs]
  refine balanced.transfer (.of_map rfl fun _ => ⟨rfl, rfl⟩) rfl ?_
  intro process signalType
  exact @View.completedWaits_updateSteps _ (((db.view job.processId).updateProcess _).updateJobs
    _ _) _ _ _ _ (fun _ => rfl) (sound.not_wait stepMember (by rw [automatic]; simp))

theorem EngineMove.balanced {processId : Nat} {db later : Db}
    (move : EngineMove processId db later) (sound : db.Sound)
    (balanced : (db.view processId).Balanced db.config) :
    (later.view processId).Balanced db.config := by
  have rows := sound.rows
  cases move with
  | ticked => exact balanced
  | swept => exact balanced
  | applied => exact balanced
  | started absent active defined =>
      rw [Db.view_placeStep _ _ _ (Db.startRows rows _ _ _ _).stepBound, if_pos rfl]
      apply View.balanced_place
      rw [Db.view_insertEvent, Db.view_insertProcess _ _ _ _ _ rows.processBound, if_pos rfl]
      obtain ⟨_, noSteps, _, noSignals⟩ := rows.view_fresh
      intro process _ signalType
      simp [View.appliedSignals, View.completedWaits, View.log, noSteps, noSignals]
  | stored =>
      rw [Db.view_insertEvent, Db.view_insertSignal]
      intro process found signalType
      have before := balanced process found signalType
      simp only [View.appliedSignals, View.completedWaits, View.log] at before ⊢
      simp [← before, isApplied]
  | signalled owner member owns waits waiting defined ready leads placed =>
      rw [Db.view_placeStep _ _ _ (Db.consumeSignal_rows rows _ _ _ _).stepBound, if_pos rfl]
      exact View.balanced_place (consumeSignal_balanced sound balanced owner member owns waits
        waiting defined ready) _ _ _ _ _
  | @leased _ job owner leaseMs member live =>
      obtain ⟨_, _, _, step, stepMember, runs, _, _, _, automatic, _⟩ := sound.running member live
      rw [Db.view_leaseJob, ← runs]
      refine balanced.transfer (.of_eq rfl) rfl ?_
      intro process signalType
      exact @View.completedWaits_updateSteps _ (db.view job.processId) _ _ _ _ (fun _ => rfl)
        (sound.not_wait stepMember (by rw [automatic]; simp))
  | disabled attemptId member live same =>
      rw [Db.disableJob_eq, Db.buryJob_congr same, ← (Db.same_keys same).2.1]
      exact @buryJob_balanced (db.updateAttempts _ _) ⟨rows, sound.settled⟩ _
        (by rw [(Db.same_keys same).2.1]; exact balanced) member (by rw [live]; rfl)
  | @finished _ job step process owner outcome leaseVersion transition next member held stepMember
      runs processMember owns leads placed =>
      rw [Db.view_placeStep _ _ _ (Db.completeJob_rows rows _ _ _).stepBound, if_pos rfl]
      obtain ⟨_, _, _, other, otherMember, otherRuns, _, _, _, automatic, _⟩ :=
        sound.running member (by rw [(held_leased held).1]; rfl)
      apply View.balanced_place
      rw [Db.view_completeJob, ← otherRuns]
      refine balanced.transfer (.of_eq rfl) rfl ?_
      intro process signalType
      exact @View.completedWaits_updateSteps _ ((db.view job.processId).updateJobs _ _)
        _ _ _ _ (fun _ => rfl) (sound.not_wait otherMember (by rw [automatic]; simp))
  | retried =>
      rw [Db.view_scheduleRetry]
      exact balanced.transfer (.of_eq rfl) rfl fun _ _ => rfl
  | died errorCode member held =>
      exact @buryJob_balanced (db.failAttempt _ _ errorCode) ⟨rows, sound.settled⟩ _ balanced
        member (by rw [(held_leased held).1]; rfl)
  | @decided _ process step decision outcome transition next principal reasonHash processMember
      member owns manual waiting known undecided leads placed =>
      rw [Db.view_placeStep _ _ _ (Db.decide_rows rows _ _ _ _ _ _).stepBound, if_pos rfl]
      apply View.balanced_place
      rw [Db.view_completeManual]
      refine balanced.transfer (.of_eq rfl) rfl ?_
      intro other signalType
      exact @View.completedWaits_updateSteps _ (db.view process.id) _ _ _ _ (fun _ => rfl)
        (sound.not_wait member (by rw [manual]; simp))

theorem reached_balanced (config : Config) (clock : Nat → Time) (digest : String → String)
    (calls : List Call) (processId : Nat) :
    ((reached config clock digest calls).db.view processId).Balanced
      (reached config clock digest calls).db.config := by
  refine reached_invariant (fun db => ∀ id, (db.view id).Balanced db.config) ?_ ?_ ?_ ?_ calls
    processId
  · intro owner before after sound _ balanced move id
    by_cases same : id = owner
    · subst same
      rw [move.config_eq]
      exact move.balanced sound (balanced id)
    · rw [move.frame sound.rows same, move.config_eq]
      exact balanced id
  · intro before after _ _ balanced move id
    simp only [Db.view, move.workflow_eq, move.config_eq]
    exact balanced id
  · intro target operation before after _ _ balanced move id
    simp only [Db.view, move.workflow_eq, move.config_eq]
    exact balanced id
  · intro id process found
    simp [Db.view, Db.initial, Workflow.process?, Table.lookup] at found

/-- A live wait of a process has no stored signal of its type left to use. -/
theorem Db.Calm.noneWaitedFor {db : Db} (calm : db.Calm) {process : Process} {step : StepInstance}
    {definition : StepDefinition} {signal : Signal} (owner : process ∈ db.workflow.processes)
    (member : step ∈ db.workflow.steps) (owns : step.processId = process.id)
    (live : step.state.live = true) (waits : step.stepType = .waitSignal)
    (defined : db.config.stepDefinition? process.flowName process.flowVersion step.stepKey =
      some definition)
    (signalMember : signal ∈ db.workflow.signals) (signalOwns : signal.processId = process.id)
    (type : definition.params.signalType = some signal.signalType) : signal.status = .applied := by
  have none := calm.quiet process.id process (calm.sound.rows.process? owner) step
    (List.mem_filter.mpr ⟨Db.mem_view_steps.mpr ⟨member, owns⟩, live⟩) waits definition defined
  cases status : signal.status with
  | applied => rfl
  | accepted =>
      have inside : signal ∈ (db.view process.id).accepted definition.params.signalType :=
        List.mem_filter.mpr ⟨Db.mem_view_signals.mpr ⟨signalMember, signalOwns⟩,
          by simp [type, status]⟩
      rw [none] at inside
      simp at inside

/-- In every state of every run: no process waits for a signal that is already stored, every
stored signal stays and at most goes from ACCEPTED to APPLIED, and the applied signals of each
type are as many as the completed waits for it. -/
theorem signals_exact (config : Config) (clock : Nat → Time) (digest : String → String)
    (calls more : List Call) :
    let db := (reached config clock digest calls).db
    (∀ process ∈ db.workflow.processes, ∀ step ∈ db.workflow.steps,
      step.processId = process.id → step.state.live = true → step.stepType = .waitSignal →
        ∀ definition, config.stepDefinition? process.flowName process.flowVersion step.stepKey =
          some definition → ∀ signal ∈ db.workflow.signals, signal.processId = process.id →
            definition.params.signalType = some signal.signalType → signal.status = .applied) ∧
      SignalsKept db (reached config clock digest (calls ++ more)).db ∧
      ∀ process ∈ db.workflow.processes, ∀ signalType,
        ((db.view process.id).appliedSignals signalType).length =
          ((db.view process.id).completedWaits config process signalType).length := by
  have steady : (reached config clock digest calls).db.Steady := reached_steady calls
  have sameConfig : (reached config clock digest calls).db.config = config := reached_config calls
  refine ⟨?_, reached_signalsKept config clock digest calls more, ?_⟩
  · intro process owner step member owns live waits definition defined signal signalMember
      signalOwns type
    rw [← sameConfig] at defined
    exact steady.calm.noneWaitedFor owner member owns live waits defined signalMember signalOwns
      type
  · intro process owner signalType
    have balanced := reached_balanced config clock digest calls process.id
    rw [sameConfig] at balanced
    exact balanced process (steady.calm.sound.rows.process? owner) signalType

end PaymentWorkflow
