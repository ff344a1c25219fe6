import PaymentWorkflow.SystemRuns

/-!
The events of a process against its rows: which steps were entered, completed and failed, which
signals came and were used, and how the process ended can be read off the log alone.
-/

namespace PaymentWorkflow

def EventType.ofStep : EventType → Bool
  | .processStarted | .signalAccepted => false
  | .stepEntered | .stepCompleted | .processCompleted => true
  | .signalApplied | .manualDecision | .taskFailed => true

def EventType.marks : EventType → StepInstance → Bool
  | .processStarted, _ => false
  | .signalAccepted, _ => false
  | .stepEntered, _ => true
  | .stepCompleted, step => step.state = .completed
  | .processCompleted, step => step.state = .completed ∧ step.stepType = .endStep
  | .signalApplied, step => step.state = .completed ∧ step.stepType = .waitSignal
  | .manualDecision, step => step.state = .completed ∧ step.stepType = .manual
  | .taskFailed, step => step.state = .failed

def loggedSteps (events : List WorkflowEvent) (eventType : EventType) : List (Option Nat) :=
  (events.filter fun row => row.eventType = eventType).map WorkflowEvent.stepInstanceId

def markedSteps (steps : List StepInstance) (eventType : EventType) : List (Option Nat) :=
  (steps.filter eventType.marks).map fun step => some step.id

def StepsLogged (steps : List StepInstance) (events : List WorkflowEvent) : Prop :=
  ∀ eventType, eventType.ofStep = true →
    (loggedSteps events eventType).Perm (markedSteps steps eventType)

theorem marks_of_live {step : StepInstance} (live : step.state.live = true) (eventType : EventType)
    (later : eventType ≠ .stepEntered) : eventType.marks step = false := by
  cases eventType <;> cases state : step.state <;> simp_all [EventType.marks, StepState.live]

theorem loggedSteps_append (left right : List WorkflowEvent) (eventType : EventType) :
    loggedSteps (left ++ right) eventType =
      loggedSteps left eventType ++ loggedSteps right eventType := by
  simp [loggedSteps]

namespace StepsLogged

variable {steps : List StepInstance} {events : List WorkflowEvent}

theorem enter (logged : StepsLogged steps events) {step : StepInstance}
    {entry : List WorkflowEvent}
    (said : ∀ eventType, eventType.ofStep = true →
      loggedSteps entry eventType = if eventType.marks step then [some step.id] else []) :
    StepsLogged (steps ++ [step]) (events ++ entry) := by
  intro eventType ofStep
  rw [loggedSteps_append, said eventType ofStep, markedSteps, List.filter_append,
    List.filter_singleton, List.map_append]
  refine (logged eventType ofStep).append (List.Perm.of_eq ?_)
  by_cases marked : eventType.marks step = true <;> simp [marked]

theorem stay (logged : StepsLogged steps events) {id : Nat} {change : StepInstance → StepInstance}
    (live : ∀ row ∈ steps, row.id = id → row.state.live = true)
    (stays : ∀ row, (change row).state.live = true ∧ (change row).id = row.id) :
    StepsLogged (Table.update (fun row => row.id = id) change steps) events := by
  intro eventType ofStep
  have marked : (Table.update (fun row => row.id = id) change steps).filter eventType.marks =
      Table.update (fun row => row.id = id) change (steps.filter eventType.marks) := by
    apply Table.filter_update_stay
    intro row member matched
    by_cases entered : eventType = .stepEntered
    · rw [entered]
      rfl
    · rw [marks_of_live (live row member (of_decide_eq_true matched)) eventType entered,
        marks_of_live (stays row).1 eventType entered]
  have same := Table.map_update (fun row : StepInstance => some row.id)
    (fun row => decide (row.id = id)) change (fun row => by rw [(stays row).2])
    (steps.filter eventType.marks)
  rw [markedSteps, marked, same]
  exact logged eventType ofStep

theorem finish (logged : StepsLogged steps events) {step : StepInstance}
    {change : StepInstance → StepInstance} {last : List WorkflowEvent}
    (unique : (steps.map StepInstance.id).Nodup) (member : step ∈ steps)
    (live : step.state.live = true) (stable : ∀ row, (change row).id = row.id)
    (said : ∀ eventType, eventType.ofStep = true → eventType ≠ .stepEntered →
      loggedSteps last eventType = if eventType.marks (change step) then [some step.id] else [])
    (entries : loggedSteps last .stepEntered = []) :
    StepsLogged (Table.update (fun row => row.id = step.id) change steps) (events ++ last) := by
  intro eventType ofStep
  rw [loggedSteps_append]
  by_cases entered : eventType = .stepEntered
  · subst entered
    have all : ∀ rows : List StepInstance, rows.filter (EventType.marks .stepEntered) = rows :=
      fun rows => List.filter_eq_self.mpr fun _ _ => rfl
    have same := Table.map_update (fun row : StepInstance => some row.id)
      (fun row => decide (row.id = step.id)) change (fun row => by rw [stable]) steps
    rw [entries, List.append_nil, markedSteps, all, same]
    simpa only [markedSteps, all] using logged .stepEntered rfl
  · rw [said eventType ofStep entered, markedSteps]
    have before := marks_of_live live eventType entered
    by_cases marked : eventType.marks (change step) = true
    · rw [if_pos marked]
      have entering := Table.perm_filter_update_enter unique member before marked
      refine ((logged eventType ofStep).append_right _).trans ?_
      refine List.Perm.trans (List.Perm.of_eq ?_) (entering.map _).symm
      simp [markedSteps, stable]
    · rw [if_neg marked, List.append_nil, Table.filter_update_away]
      · exact logged eventType ofStep
      · intro row inside matched
        rw [Table.key_unique unique inside member (of_decide_eq_true matched)]
        exact before
      · intro row inside matched
        rw [Table.key_unique unique inside member (of_decide_eq_true matched)]
        exact Bool.not_eq_true _ ▸ marked

end StepsLogged

structure View.Audited (view : View) : Prop where
  steps : StepsLogged view.steps view.events
  started : (loggedSteps view.events .processStarted).length = view.process.toList.length
  accepted : (loggedSteps view.events .signalAccepted).length = view.signals.length
  applied : (loggedSteps view.events .signalApplied).length =
    (view.signals.filter fun row => row.status = .applied).length
  completed : ∀ process, view.process = some process →
    (loggedSteps view.events .processCompleted).length =
      if process.state = .completed then 1 else 0
  failed : ∀ process, view.process = some process →
    (loggedSteps view.events .taskFailed).length = if process.state = .failed then 1 else 0

namespace View.Audited

variable {view : View}

theorem enter (audited : view.Audited) (db : Db) (processId : Nat) (definition : StepDefinition)
    (jobs : List Job) (open_ : ∀ process, view.process = some process →
      process.state ≠ .completed ∧ process.state ≠ .failed) :
    (view.place definition (db.placedStep processId definition) jobs
      (db.placedEvents processId definition)).Audited := by
  have ended : ∀ eventType, (loggedSteps (db.placedEvents processId definition) eventType) =
      if eventType.marks (db.placedStep processId definition) then [some db.nextId] else [] := by
    intro eventType
    rcases definition with ⟨_, _, _, stepType, _⟩
    cases stepType <;> cases eventType <;>
      simp [loggedSteps, Db.placedEvents, EventType.marks, Db.placedStep, StepType.entryState]
  refine ⟨?_, ?_, ?_, ?_, ?_, ?_⟩
  · exact audited.steps.enter fun eventType _ => ended eventType
  · simpa [place, loggedSteps_append, ended, EventType.marks, Option.toList_map] using
      audited.started
  · simpa [place, loggedSteps_append, ended, EventType.marks] using audited.accepted
  · rcases definition with ⟨_, _, _, stepType, _⟩
    cases stepType <;>
      simpa [place, loggedSteps_append, ended, EventType.marks, Db.placedStep,
        StepType.entryState] using audited.applied
  · intro process found
    obtain ⟨before, beforeFound, rfl⟩ := Option.map_eq_some_iff.mp found
    have none_ := audited.completed before beforeFound
    rw [if_neg (open_ before beforeFound).1] at none_
    rcases definition with ⟨_, _, _, stepType, _⟩
    cases stepType <;>
      simp [place, loggedSteps_append, ended, EventType.marks, Db.placedStep, none_,
        StepType.entryState, Db.placedProcess, StepType.processState]
  · intro process found
    obtain ⟨before, beforeFound, rfl⟩ := Option.map_eq_some_iff.mp found
    have none_ := audited.failed before beforeFound
    rw [if_neg (open_ before beforeFound).2] at none_
    rcases definition with ⟨_, _, _, stepType, _⟩
    cases stepType <;>
      simp [place, loggedSteps_append, ended, EventType.marks, Db.placedStep, none_,
        StepType.entryState, Db.placedProcess, StepType.processState]

theorem finish (audited : view.Audited) {later : View} {step : StepInstance}
    (change : StepInstance → StepInstance) (last : List WorkflowEvent)
    (unique : (view.steps.map StepInstance.id).Nodup) (member : step ∈ view.steps)
    (live : step.state.live = true) (kept : ∀ row, (change row).id = row.id)
    (process : later.process = view.process)
    (steps : later.steps = Table.update (fun row => row.id = step.id) change view.steps)
    (events : later.events = view.events ++ last)
    (said : ∀ eventType, loggedSteps last eventType =
      if eventType.marks (change step) ∧ eventType ≠ .stepEntered then [some step.id] else [])
    (signals : later.signals.length = view.signals.length)
    (applied : (later.signals.filter fun row => row.status = .applied).length =
      (view.signals.filter fun row => row.status = .applied).length +
        (loggedSteps last .signalApplied).length)
    (open_ : loggedSteps last .processCompleted = [] ∧ loggedSteps last .taskFailed = []) :
    later.Audited := by
  refine ⟨?_, ?_, ?_, ?_, ?_, ?_⟩
  · rw [steps, events]
    refine audited.steps.finish unique member live kept ?_ ?_
    · intro eventType _ later_
      simp [said, later_]
    · simp [said]
  · rw [events, process, loggedSteps_append, said, if_neg (by simp [EventType.marks]),
      List.append_nil]
    exact audited.started
  · rw [events, signals, loggedSteps_append, said, if_neg (by simp [EventType.marks]),
      List.append_nil]
    exact audited.accepted
  · rw [events, applied, loggedSteps_append, List.length_append, audited.applied]
  · intro row found
    rw [events, loggedSteps_append, open_.1, List.append_nil]
    exact audited.completed row (process ▸ found)
  · intro row found
    rw [events, loggedSteps_append, open_.2, List.append_nil]
    exact audited.failed row (process ▸ found)

end View.Audited

theorem Db.Sound.job_view {db : Db} (sound : db.Sound) {job : Job}
    (member : job ∈ db.workflow.jobs) (live : job.state.live = true) :
    ∃ step ∈ (db.view job.processId).steps, step.id = job.stepInstanceId ∧
      step.state.live = true ∧ step.stepType = .automatic ∧
        ∃ process, (db.view job.processId).process = some process ∧ process.state = .running := by
  obtain ⟨process, owner, ownerId, step, _, runs, _, running, _, automatic, only, _⟩ :=
    sound.running member live
  have inside : step ∈ (db.view job.processId).liveSteps := by rw [only]; simp
  obtain ⟨stepMember, stepLive⟩ := List.mem_filter.mp inside
  refine ⟨step, stepMember, runs, stepLive, automatic, process, ?_, running⟩
  rw [← ownerId]
  exact sound.rows.process? owner

theorem Db.Rows.view_stepIds {db : Db} (rows : db.Rows) (processId : Nat) :
    ((db.view processId).steps.map StepInstance.id).Nodup :=
  rows.stepIds.sublist (List.filter_sublist.map StepInstance.id)

theorem consumeSignal_audited {db : Db} (sound : db.Sound) {process : Process}
    {step : StepInstance} {outcome signalType : Option String} {signal : Signal}
    (audited : (db.view process.id).Audited) (member : step ∈ db.workflow.steps)
    (owns : step.processId = process.id) (waits : step.stepType = .waitSignal)
    (waiting : step.state = .waiting)
    (ready : db.readySignal? process.id signalType = some signal) :
    ((db.consumeSignal process.id step.id outcome signal).view process.id).Audited := by
  obtain ⟨signalMember, signalOwns, _, accepted⟩ := Db.readySignal?_mem ready
  have messageIds : ((db.view process.id).signals.map Signal.messageId).Nodup :=
    sound.rows.messageIds.sublist (List.filter_sublist.map _)
  rw [Db.view_consumeSignal, if_pos rfl]
  refine audited.finish (fun row => { row with state := .completed, outcome })
    [⟨process.id, some step.id, .signalApplied⟩, ⟨process.id, some step.id, .stepCompleted⟩]
    (sound.rows.view_stepIds process.id) (Db.mem_view_steps.mpr ⟨member, owns⟩)
    (by rw [waiting]; rfl) (fun _ => rfl) ?_ ?_ ?_ ?_ ?_ ?_ ?_
  · rfl
  · rfl
  · rfl
  · intro eventType
    cases eventType <;> simp [loggedSteps, EventType.marks, waits]
  · simp [View.log, View.updateSteps, View.updateSignals, Table.update]
  · have entering := @Table.length_filter_update_enter _ _ _ Signal.messageId
      (fun row => row.status = .applied) (fun row => { row with status := .applied })
      (db.view process.id).signals signal messageIds
      (Db.mem_view_signals.mpr ⟨signalMember, signalOwns⟩) (by simp [accepted]) (by simp)
    exact entering
  · exact ⟨rfl, rfl⟩

theorem completeJob_audited {db : Db} (sound : db.Sound) {job : Job} {leaseVersion : Option Int}
    {outcome : Option String} (audited : (db.view job.processId).Audited)
    (member : job ∈ db.workflow.jobs) (live : job.state.live = true) :
    ((db.completeJob job leaseVersion outcome).view job.processId).Audited := by
  obtain ⟨step, inside, runs, stepLive, automatic, _⟩ := sound.job_view member live
  rw [Db.view_completeJob, if_pos rfl, ← runs]
  refine audited.finish (fun row => { row with state := .completed, outcome })
    [⟨job.processId, some step.id, .stepCompleted⟩] (sound.rows.view_stepIds job.processId)
    inside stepLive (fun _ => rfl) ?_ ?_ ?_ ?_ ?_ ?_ ?_
  · rfl
  · rfl
  · rfl
  · intro eventType
    cases eventType <;> simp [loggedSteps, EventType.marks, automatic]
  · rfl
  · rfl
  · exact ⟨rfl, rfl⟩

theorem completeManual_audited {db : Db} (sound : db.Sound) {processId : Nat}
    {step : StepInstance} (decision : String) (audited : (db.view processId).Audited)
    (member : step ∈ db.workflow.steps) (owns : step.processId = processId)
    (manual : step.stepType = .manual) (waiting : step.state = .waiting) :
    ((db.completeManual processId step.id decision).view processId).Audited := by
  rw [Db.view_completeManual, if_pos rfl]
  refine audited.finish (fun row => { row with state := .completed, outcome := some decision })
    [⟨processId, some step.id, .manualDecision⟩, ⟨processId, some step.id, .stepCompleted⟩]
    (sound.rows.view_stepIds processId) (Db.mem_view_steps.mpr ⟨member, owns⟩)
    (by rw [waiting]; rfl) (fun _ => rfl) ?_ ?_ ?_ ?_ ?_ ?_ ?_
  · rfl
  · rfl
  · rfl
  · intro eventType
    cases eventType <;> simp [loggedSteps, EventType.marks, manual]
  · rfl
  · rfl
  · exact ⟨rfl, rfl⟩

theorem leaseJob_audited {db : Db} (sound : db.Sound) {job : Job} (owner : String) (leaseMs : Option Int)
    (audited : (db.view job.processId).Audited) (member : job ∈ db.workflow.jobs)
    (live : job.state.live = true) :
    ((db.leaseJob owner leaseMs job).view job.processId).Audited := by
  obtain ⟨step, inside, runs, stepLive, _⟩ := sound.job_view member live
  rw [Db.view_leaseJob, ← runs]
  refine { audited with steps := audited.steps.stay ?_ fun _ => ⟨rfl, rfl⟩ }
  intro row rowMember same
  rw [Table.key_unique (sound.rows.view_stepIds job.processId) rowMember inside same]
  exact stepLive

theorem buryJob_audited {db : Db} (sound : db.Sound) {job : Job}
    (audited : (db.view job.processId).Audited) (member : job ∈ db.workflow.jobs)
    (live : job.state.live = true) : ((db.buryJob job).view job.processId).Audited := by
  obtain ⟨step, inside, runs, stepLive, _, process, found, running⟩ := sound.job_view member live
  have failed := audited.failed process found
  have completed := audited.completed process found
  rw [running] at failed completed
  have logs : ∀ eventType, loggedSteps ((db.view job.processId).events ++
      [⟨job.processId, some step.id, .taskFailed⟩]) eventType =
        loggedSteps (db.view job.processId).events eventType ++
          if eventType = .taskFailed then [some step.id] else [] := by
    intro eventType
    rw [loggedSteps_append]
    cases eventType <;> rfl
  rw [Db.view_buryJob, if_pos rfl, if_pos rfl, ← runs]
  refine ⟨?_, ?_, ?_, ?_, ?_, ?_⟩
  · refine audited.steps.finish (sound.rows.view_stepIds job.processId) inside stepLive
      (fun _ => rfl) ?_ rfl
    intro eventType ofStep later
    cases eventType <;> simp_all [loggedSteps, EventType.marks, EventType.ofStep]
  · simpa [View.log, logs, View.updateSteps, View.updateJobs, View.updateProcess,
      Option.toList_map] using audited.started
  · simpa [View.log, logs, View.updateSteps, View.updateJobs, View.updateProcess] using
      audited.accepted
  · simpa [View.log, logs, View.updateSteps, View.updateJobs, View.updateProcess] using
      audited.applied
  · intro row rowFound
    obtain ⟨before, _, rfl⟩ := Option.map_eq_some_iff.mp rowFound
    simpa [View.log, logs, View.updateSteps, View.updateJobs, View.updateProcess] using completed
  · intro row rowFound
    obtain ⟨before, _, rfl⟩ := Option.map_eq_some_iff.mp rowFound
    simpa [View.log, logs, View.updateSteps, View.updateJobs, View.updateProcess] using failed

theorem startProcess_audited {db : Db} (rows : db.Rows) (audited : (db.view db.nextId).Audited)
    {process : Process} (created : process.state = .created) :
    ({ db.view db.nextId with process := some process }.log
      [⟨db.nextId, none, .processStarted⟩]).Audited := by
  obtain ⟨noProcess, noSteps, _, noSignals⟩ := rows.view_fresh
  have none_ : ∀ eventType, eventType.ofStep = true →
      loggedSteps (db.view db.nextId).events eventType = [] := by
    intro eventType ofStep
    have same := audited.steps eventType ofStep
    rw [noSteps] at same
    exact same.eq_nil
  have started := audited.started
  have accepted := audited.accepted
  rw [noProcess] at started
  rw [noSignals] at accepted
  have logs : ∀ eventType, loggedSteps ((db.view db.nextId).events ++
      [⟨db.nextId, none, .processStarted⟩]) eventType =
        loggedSteps (db.view db.nextId).events eventType ++
          if eventType = .processStarted then [none] else [] := by
    intro eventType
    rw [loggedSteps_append]
    cases eventType <;> rfl
  refine ⟨?_, ?_, ?_, ?_, ?_, ?_⟩
  · intro eventType ofStep
    have later : eventType ≠ .processStarted := fun same => by simp [same, EventType.ofStep] at ofStep
    simp [View.log, logs, none_ eventType ofStep, later, markedSteps, noSteps]
  · simp [View.log, logs, started]
  · simp [View.log, logs, accepted, noSignals]
  · simp [View.log, logs, none_ .signalApplied rfl, noSignals]
  · intro row found
    cases found
    simp [View.log, logs, none_ .processCompleted rfl, created]
  · intro row found
    cases found
    simp [View.log, logs, none_ .taskFailed rfl, created]

theorem insertSignal_audited {view : View} (audited : view.Audited) (processId : Nat)
    {signal : Signal} (accepted : signal.status = .accepted) :
    ({ view with signals := view.signals ++ [signal] }.log
      [⟨processId, none, .signalAccepted⟩]).Audited := by
  have logs : ∀ eventType, loggedSteps (view.events ++ [⟨processId, none, .signalAccepted⟩])
      eventType = loggedSteps view.events eventType ++
        if eventType = .signalAccepted then [none] else [] := by
    intro eventType
    rw [loggedSteps_append]
    cases eventType <;> rfl
  refine ⟨?_, ?_, ?_, ?_, ?_, ?_⟩
  · intro eventType ofStep
    have other : eventType ≠ .signalAccepted := fun same => by simp [same, EventType.ofStep] at ofStep
    simpa [View.log, logs, other] using audited.steps eventType ofStep
  · simpa [View.log, logs] using audited.started
  · simpa [View.log, logs] using audited.accepted
  · simpa [View.log, logs, accepted] using audited.applied
  · intro row found
    simpa [View.log, logs] using audited.completed row found
  · intro row found
    simpa [View.log, logs] using audited.failed row found

theorem EngineMove.audited {processId : Nat} {db later : Db}
    (move : EngineMove processId db later) (sound : db.Sound)
    (audited : (db.view processId).Audited) : (later.view processId).Audited := by
  have rows := sound.rows
  cases move with
  | ticked => exact audited
  | swept => exact audited
  | applied => exact audited
  | started absent active defined =>
      rw [Db.view_placeStep _ _ _ (Db.startRows rows _ _ _ _).stepBound, if_pos rfl,
        Db.view_insertEvent, Db.view_insertProcess _ _ _ _ _ rows.processBound, if_pos rfl,
        if_pos rfl]
      refine (startProcess_audited rows audited rfl).enter _ _ _ _ ?_
      intro process found
      cases found
      exact ⟨nofun, nofun⟩
  | stored =>
      rw [Db.view_insertEvent, Db.view_insertSignal, if_pos rfl, if_pos rfl]
      exact insertSignal_audited audited _ rfl
  | @signalled _ process step definition next signal transition owner member owns waits waiting
      defined ready leads placed =>
      rw [Db.view_placeStep _ _ _ (Db.consumeSignal_rows rows _ _ _ _).stepBound, if_pos rfl]
      refine (consumeSignal_audited sound audited member owns waits waiting ready).enter _ _ _ _ ?_
      intro row found
      rw [Db.view_consumeSignal] at found
      obtain ⟨_, _, _, state, _⟩ := (sound.settled process.id).of_waiting found
        (Db.mem_view_steps.mpr ⟨member, owns⟩) waiting (by rw [waits]; nofun)
      rw [state waits]
      exact ⟨nofun, nofun⟩
  | leased owner leaseMs member live =>
      exact leaseJob_audited sound owner leaseMs audited member live
  | disabled attemptId member live same =>
      rw [Db.disableJob_eq, Db.buryJob_congr same, ← (Db.same_keys same).2.1]
      exact @buryJob_audited (db.updateAttempts _ _) ⟨rows, sound.settled⟩ _
        (by rw [(Db.same_keys same).2.1]; exact audited) member (by rw [live]; rfl)
  | @finished _ job step process owner outcome leaseVersion transition next member held stepMember
      runs processMember owns leads placed =>
      rw [Db.view_placeStep _ _ _ (Db.completeJob_rows rows _ _ _).stepBound, if_pos rfl]
      have live : job.state.live = true := by rw [(held_leased held).1]; rfl
      refine (completeJob_audited sound audited member live).enter _ _ _ _ ?_
      intro row found
      rw [Db.view_completeJob] at found
      obtain ⟨_, _, _, _, _, running, runningFound, state⟩ := sound.job_view member live
      cases runningFound.symm.trans found
      rw [state]
      exact ⟨nofun, nofun⟩
  | retried =>
      rw [Db.view_scheduleRetry]
      exact { audited with }
  | died errorCode member held =>
      exact @buryJob_audited (db.failAttempt _ _ errorCode) ⟨rows, sound.settled⟩ _ audited
        member (by rw [(held_leased held).1]; rfl)
  | @decided _ process step decision outcome transition next principal reasonHash processMember
      member owns manual waiting known undecided leads placed =>
      rw [Db.view_placeStep _ _ _ (Db.decide_rows rows _ _ _ _ _ _).stepBound, if_pos rfl]
      have decided := @completeManual_audited (db.insertDecision process.id step.id .manual
        principal reasonHash outcome none) ⟨rows.of_fixed rfl rfl (Nat.le_succ _), sound.settled⟩
        _ _ decision audited member owns manual waiting
      refine decided.enter _ _ _ _ ?_
      intro row found
      rw [Db.view_completeManual] at found
      obtain ⟨_, _, _, _, state⟩ := (sound.settled process.id).of_waiting found
        (Db.mem_view_steps.mpr ⟨member, owns⟩) waiting (by rw [manual]; nofun)
      rw [state manual]
      exact ⟨nofun, nofun⟩

theorem reached_audited (config : Config) (clock : Nat → Time) (digest : String → String)
    (calls : List Call) (processId : Nat) :
    ((reached config clock digest calls).db.view processId).Audited := by
  refine reached_invariant (fun db => ∀ id, (db.view id).Audited) ?_ ?_ ?_ ?_ calls processId
  · intro owner before after sound _ audited move id
    by_cases same : id = owner
    · subst same
      exact move.audited sound (audited id)
    · rw [move.frame sound.rows same]
      exact audited id
  · intro before after _ _ audited move id
    rw [Db.view, move.workflow_eq]
    exact audited id
  · intro target operation before after _ _ audited move id
    rw [Db.view, move.workflow_eq]
    exact audited id
  · intro id
    refine ⟨fun eventType _ => List.Perm.refl [], rfl, rfl, rfl, ?_, ?_⟩
    · intro process found
      simp [Db.view, Db.initial, Workflow.process?, Table.lookup] at found
    · intro process found
      simp [Db.view, Db.initial, Workflow.process?, Table.lookup] at found

/-! The same for whole tables, event by event. -/

namespace Db

def stepEvents (db : Db) (step : StepInstance) (eventType : EventType) : List WorkflowEvent :=
  db.workflow.events.filter fun row => row.stepInstanceId = some step.id ∧ row.eventType = eventType

def processEvents (db : Db) (process : Process) (eventType : EventType) : List WorkflowEvent :=
  db.workflow.events.filter fun row => row.processId = process.id ∧ row.eventType = eventType

def completedManual (db : Db) (process : Process) : List StepInstance :=
  db.workflow.steps.filter fun row =>
    row.processId = process.id ∧ row.state = .completed ∧ row.stepType = .manual

/-- Every step, process and signal has the events of what became of it, and no others. -/
structure EventLog (db : Db) : Prop where
  entered : ∀ step ∈ db.workflow.steps, (db.stepEvents step .stepEntered).length = 1
  completed : ∀ step ∈ db.workflow.steps,
    (db.stepEvents step .stepCompleted).length = if step.state = .completed then 1 else 0
  failed : ∀ step ∈ db.workflow.steps,
    (db.stepEvents step .taskFailed).length = if step.state = .failed then 1 else 0
  processStarted : ∀ process ∈ db.workflow.processes,
    (db.processEvents process .processStarted).length = 1
  processCompleted : ∀ process ∈ db.workflow.processes,
    (db.processEvents process .processCompleted).length =
      if process.state = .completed then 1 else 0
  processFailed : ∀ process ∈ db.workflow.processes,
    (db.processEvents process .taskFailed).length = if process.state = .failed then 1 else 0
  signalAccepted : ∀ process ∈ db.workflow.processes,
    (db.processEvents process .signalAccepted).length =
      (db.workflow.signals.filter fun row => row.processId = process.id).length
  signalApplied : ∀ process ∈ db.workflow.processes,
    (db.processEvents process .signalApplied).length =
      (db.workflow.signals.filter fun row =>
        row.processId = process.id ∧ row.status = .applied).length
  manualDecision : ∀ process ∈ db.workflow.processes,
    ((db.completedManual process).map StepInstance.id).Nodup ∧
      ((db.processEvents process .manualDecision).map WorkflowEvent.stepInstanceId).Perm
        ((db.completedManual process).map fun step => some step.id)

variable {db : Db}

theorem processEvents_eq (process : Process) (eventType : EventType) :
    (db.processEvents process eventType).map WorkflowEvent.stepInstanceId =
      loggedSteps (db.view process.id).events eventType := by
  rw [loggedSteps, view, List.filter_filter, processEvents]
  congr 2
  funext row
  simp [Bool.and_comm]

theorem length_processEvents (process : Process) (eventType : EventType) :
    (db.processEvents process eventType).length =
      (loggedSteps (db.view process.id).events eventType).length := by
  rw [← processEvents_eq, List.length_map]

theorem event_process (rows : db.Rows) (audited : ∀ id, (db.view id).Audited)
    {step : StepInstance} (member : step ∈ db.workflow.steps) {event : WorkflowEvent}
    (logged : event ∈ db.workflow.events) (ofStep : event.eventType.ofStep = true)
    (names : event.stepInstanceId = some step.id) : event.processId = step.processId := by
  have inside : some step.id ∈ loggedSteps (db.view event.processId).events event.eventType := by
    refine List.mem_map.mpr ⟨event, ?_, names⟩
    simp [view, logged]
  have marked := ((audited event.processId).steps event.eventType ofStep).mem_iff.mp inside
  obtain ⟨other, otherMember, same⟩ := List.mem_map.mp marked
  obtain ⟨otherStep, otherOwns⟩ := mem_view_steps.mp (List.mem_filter.mp otherMember).1
  rw [← Table.key_unique rows.stepIds otherStep member (Option.some.inj same)]
  exact otherOwns.symm

theorem length_stepEvents (rows : db.Rows) (audited : ∀ id, (db.view id).Audited)
    {step : StepInstance} (member : step ∈ db.workflow.steps) {eventType : EventType}
    (ofStep : eventType.ofStep = true) :
    (db.stepEvents step eventType).length = if eventType.marks step then 1 else 0 := by
  have own : db.stepEvents step eventType =
      ((db.view step.processId).events.filter fun row => row.eventType = eventType).filter
        fun row => row.stepInstanceId = some step.id := by
    rw [view, List.filter_filter, List.filter_filter]
    apply List.filter_congr
    intro event logged
    by_cases names : event.stepInstanceId = some step.id ∧ event.eventType = eventType
    · have owner := event_process rows audited member logged (names.2 ▸ ofStep) names.1
      simp [names, owner]
    · by_cases named : event.stepInstanceId = some step.id
      · have other : event.eventType ≠ eventType := fun same => names ⟨named, same⟩
        simp [other]
      · simp [named]
  have counted : (db.stepEvents step eventType).length =
      (loggedSteps (db.view step.processId).events eventType).count (some step.id) := by
    rw [own, loggedSteps, List.count_eq_countP, List.countP_map, List.countP_eq_length_filter]
    congr 2
    funext row
    by_cases named : row.stepInstanceId = some step.id <;> simp [named]
  have inside : step ∈ (db.view step.processId).steps := mem_view_steps.mpr ⟨member, rfl⟩
  have unique := rows.view_stepIds step.processId
  have marked : (markedSteps (db.view step.processId).steps eventType).Nodup := by
    have ids : (((db.view step.processId).steps.filter eventType.marks).map
        StepInstance.id).Nodup := unique.sublist (List.filter_sublist.map _)
    have named := ids.map (Option.some_injective Nat)
    rwa [List.map_map] at named
  rw [counted, ((audited step.processId).steps eventType ofStep).count_eq, marked.count]
  congr 1
  rw [eq_iff_iff]
  constructor
  · intro present
    obtain ⟨other, otherMember, same⟩ := List.mem_map.mp present
    obtain ⟨otherInside, otherMarked⟩ := List.mem_filter.mp otherMember
    rwa [Table.key_unique unique otherInside inside (Option.some.inj same)] at otherMarked
  · intro marks
    exact List.mem_map.mpr ⟨step, List.mem_filter.mpr ⟨inside, marks⟩, rfl⟩

end Db

/-- In every reachable state the event log tells the state of every row. -/
theorem reached_eventLog (config : Config) (clock : Nat → Time) (digest : String → String)
    (calls : List Call) : (reached config clock digest calls).db.EventLog := by
  have rows := (@reached_steady config clock digest calls).calm.sound.rows
  have audited := reached_audited config clock digest calls
  generalize (reached config clock digest calls).db = db at rows audited ⊢
  refine ⟨?_, ?_, ?_, ?_, ?_, ?_, ?_, ?_, ?_⟩
  · intro step member
    exact Db.length_stepEvents rows audited member rfl
  · intro step member
    rw [Db.length_stepEvents rows audited member rfl]
    simp [EventType.marks]
  · intro step member
    rw [Db.length_stepEvents rows audited member rfl]
    simp [EventType.marks]
  · intro process member
    have found : (db.view process.id).process = some process := rows.process? member
    rw [Db.length_processEvents, (audited process.id).started, found]
    rfl
  · intro process member
    rw [Db.length_processEvents]
    exact (audited process.id).completed process (rows.process? member)
  · intro process member
    rw [Db.length_processEvents]
    exact (audited process.id).failed process (rows.process? member)
  · intro process member
    rw [Db.length_processEvents]
    exact (audited process.id).accepted
  · intro process member
    rw [Db.length_processEvents, (audited process.id).applied, Db.view, List.filter_filter]
    congr 2
    funext row
    simp [Bool.and_comm]
  · intro process member
    have own : db.completedManual process =
        (db.view process.id).steps.filter (EventType.marks .manualDecision) := by
      rw [Db.view, List.filter_filter]
      apply List.filter_congr
      intro row _
      simp [EventType.marks, Bool.and_comm]
    rw [own, Db.processEvents_eq]
    refine ⟨(rows.view_stepIds process.id).sublist (List.filter_sublist.map _), ?_⟩
    exact (audited process.id).steps .manualDecision rfl

end PaymentWorkflow
