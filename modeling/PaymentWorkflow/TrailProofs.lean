import PaymentWorkflow.SystemRuns
import Mathlib.Data.List.Chain

/-!
The step instances of a process, in the order they were entered, are a walk along the
transitions of its version, and only the last of them can still be open.
-/

namespace PaymentWorkflow

section Lists

variable {Item : Type} {follows : Item → Item → Prop} {earlier : List Item} {last : Item}

theorem walk_followed (walk : List.IsChain follows (earlier ++ [last])) :
    ∀ item ∈ earlier, ∃ next ∈ earlier ++ [last], follows item next := by
  induction earlier with
  | nil => simp
  | cons first rest ih =>
      intro item member
      cases rest with
      | nil =>
          simp only [List.mem_singleton] at member
          simp only [List.cons_append, List.nil_append, List.isChain_cons_cons] at walk
          exact ⟨last, by simp, member ▸ walk.1⟩
      | cons second rest =>
          simp only [List.cons_append, List.isChain_cons_cons] at walk
          rcases List.mem_cons.mp member with same | later
          · exact ⟨second, by simp, same ▸ walk.1⟩
          · obtain ⟨next, inside, after⟩ := ih walk.2 item later
            exact ⟨next, List.mem_cons_of_mem _ inside, after⟩

theorem walk_relast {other : Item} (walk : List.IsChain follows (earlier ++ [last]))
    (same : ∀ item, follows item last → follows item other) :
    List.IsChain follows (earlier ++ [other]) := by
  rw [List.isChain_append] at walk ⊢
  refine ⟨walk.1, by simp, ?_⟩
  intro item final next head
  simp only [List.head?_cons, Option.mem_some_iff] at head
  subst head
  exact same item (walk.2.2 item final last (by simp))

theorem walk_extend {next : Item} (walk : List.IsChain follows (earlier ++ [last]))
    (step : follows last next) : List.IsChain follows (earlier ++ [last] ++ [next]) := by
  rw [List.isChain_append]
  refine ⟨walk, by simp, ?_⟩
  intro item final other head
  simp only [List.getLast?_append, List.getLast?_singleton, Option.some_or,
    Option.mem_some_iff] at final
  simp only [List.head?_cons, Option.mem_some_iff] at head
  exact final ▸ head ▸ step

end Lists

def StepInstance.completedWith (outcome : Option String) (step : StepInstance) : StepInstance :=
  { step with state := .completed, outcome }

def Leads (config : Config) (flowName : String) (flowVersion : Int)
    (step next : StepInstance) : Prop :=
  step.state = .completed ∧ ∃ transition,
    config.transition? flowName flowVersion (some step.stepKey) step.outcome = some transition ∧
      transition.toStepKey = next.stepKey

structure Trail (config : Config) (view : View) (process : Process)
    (earlier : List StepInstance) (last : StepInstance) : Prop where
  steps : view.steps = earlier ++ [last]
  walk : List.IsChain (Leads config process.flowName process.flowVersion) (earlier ++ [last])
  first : ∃ version ∈ config.flowVersions, version.flowName = process.flowName ∧
    version.version = process.flowVersion ∧
      (earlier ++ [last]).head?.map StepInstance.stepKey = some version.map.startStep
  current : process.currentStepKey = some last.stepKey
  completed : process.state = .completed → last.stepType = .endStep ∧ last.state = .completed
  failed : process.state = .failed → last.state = .failed ∧
    ∃ job ∈ view.jobs, job.stepInstanceId = last.id ∧ job.state = .dead

def View.Trailed (config : Config) (view : View) : Prop :=
  ∀ process, view.process = some process → ∃ earlier last, Trail config view process earlier last

def Db.Trailed (db : Db) : Prop := ∀ processId, (db.view processId).Trailed db.config

namespace Trail

variable {config : Config} {view : View} {process : Process} {earlier : List StepInstance}
  {last : StepInstance}

theorem live (trail : Trail config view process earlier last) {step : StepInstance}
    (openStep : step ∈ view.liveSteps) : step = last := by
  obtain ⟨member, live⟩ := List.mem_filter.mp openStep
  rw [trail.steps] at member
  rcases List.mem_append.mp member with before | final
  · obtain ⟨next, _, completed, _⟩ := walk_followed trail.walk step before
    rw [completed] at live
    simp [StepState.live] at live
  · simpa using final

theorem relast (trail : Trail config view process earlier last)
    (unique : (view.steps.map StepInstance.id).Nodup) {change : StepInstance → StepInstance}
    (key : (change last).stepKey = last.stepKey) :
    Table.update (fun row => row.id = last.id) change view.steps = earlier ++ [change last] ∧
      List.IsChain (Leads config process.flowName process.flowVersion)
        (earlier ++ [change last]) ∧
      (earlier ++ [change last]).head?.map StepInstance.stepKey =
        (earlier ++ [last]).head?.map StepInstance.stepKey := by
  rw [trail.steps] at unique ⊢
  refine ⟨Table.update_last unique, walk_relast trail.walk ?_, ?_⟩
  · rintro step ⟨completed, transition, found, target⟩
    exact ⟨completed, transition, found, target.trans key.symm⟩
  · cases earlier with
    | nil => simp [key]
    | cons => rfl

theorem advance (trail : Trail config view process earlier last)
    (unique : (view.steps.map StepInstance.id).Nodup) {outcome : Option String}
    {transition : TransitionDefinition} {next : StepDefinition} (db : Db) {after : View}
    (jobs : List Job) (events : List WorkflowEvent)
    (processSame : after.process = some process)
    (stepsAfter : after.steps = Table.update (fun row => row.id = last.id)
      (StepInstance.completedWith outcome) view.steps)
    (leads : config.transition? process.flowName process.flowVersion process.currentStepKey
      outcome = some transition)
    (placed : config.stepDefinition? process.flowName process.flowVersion
      transition.toStepKey = some next) :
    (after.place next (db.placedStep process.id next) jobs events).Trailed config := by
  intro found present
  simp only [View.place, processSame, Option.map_some, Option.some.injEq] at present
  subst present
  obtain ⟨updated, walk, head⟩ := trail.relast unique
    (show (last.completedWith outcome).stepKey = last.stepKey from rfl)
  have key := stepDefinition?_key placed
  obtain ⟨version, member, named, numbered, start⟩ := trail.first
  have follows : Leads config process.flowName process.flowVersion
      (last.completedWith outcome) (db.placedStep process.id next) := by
    refine ⟨rfl, transition, ?_, key.2.2.symm⟩
    rw [← leads, trail.current]
    rfl
  have walked := walk_extend walk follows
  refine ⟨earlier ++ [last.completedWith outcome], db.placedStep process.id next,
    ?_, walked, ⟨version, member, named, numbered, ?_⟩, rfl, ?_, ?_⟩
  · simp only [View.place, stepsAfter, updated]
  · rw [← start, ← head]
    simp
  · rcases next with ⟨_, _, _, stepType, _⟩
    cases stepType <;>
      simp [Db.placedProcess, StepType.processState, Db.placedStep, StepType.entryState]
  · rcases next with ⟨_, _, _, stepType, _⟩
    cases stepType <;> simp [Db.placedProcess, StepType.processState]

/-- A process in the middle of a step stays on its trail whatever becomes of that step. -/
theorem stay (trail : Trail config view process earlier last)
    (unique : (view.steps.map StepInstance.id).Nodup) {after : View}
    {change : StepInstance → StepInstance} (key : (change last).stepKey = last.stepKey)
    (processSame : after.process = some process)
    (stepsAfter : after.steps = Table.update (fun row => row.id = last.id) change view.steps)
    (running : process.state ≠ .completed ∧ process.state ≠ .failed) : after.Trailed config := by
  intro found present
  rw [processSame] at present
  cases present
  obtain ⟨updated, walk, head⟩ := trail.relast unique key
  obtain ⟨version, member, named, numbered, start⟩ := trail.first
  exact ⟨earlier, change last, stepsAfter.trans updated, walk,
    ⟨version, member, named, numbered, head.trans start⟩, trail.current.trans (by rw [key]),
    fun state => absurd state running.1, fun state => absurd state running.2⟩

end Trail

/-! The moves of the engine. -/

theorem Db.view_stepIds {db : Db} (rows : db.Rows) (processId : Nat) :
    ((db.view processId).steps.map StepInstance.id).Nodup :=
  rows.stepIds.sublist (List.filter_sublist.map StepInstance.id)

theorem Db.Sound.view_running {db : Db} (sound : db.Sound) {job : Job}
    (member : job ∈ db.workflow.jobs) (live : job.state.live = true) :
    ∃ process step, (db.view job.processId).process = some process ∧ process.id = job.processId ∧
      process.state = .running ∧ step.id = job.stepInstanceId ∧
        step ∈ (db.view job.processId).liveSteps := by
  obtain ⟨process, processMember, owns, step, _, runs, _, state, _, _, steps, _⟩ :=
    sound.running member live
  refine ⟨process, step, ?_, owns, state, runs, by rw [steps]; simp⟩
  rw [← owns]
  exact sound.rows.process? processMember

theorem View.Trailed.of_same {config : Config} {view after : View} (trailed : view.Trailed config)
    (process : after.process = view.process) (steps : after.steps = view.steps)
    (jobs : after.jobs = view.jobs) : after.Trailed config := by
  intro found present
  obtain ⟨earlier, last, trail⟩ := trailed found (process ▸ present)
  exact ⟨earlier, last, steps ▸ trail.steps, trail.walk, trail.first, trail.current,
    trail.completed, jobs ▸ trail.failed⟩

namespace Db

variable {db : Db}

theorem startStep_trailed (rows : db.Rows) {flowName businessKey : String} {data : Json}
    {version : FlowVersion} {definition : StepDefinition}
    (active : db.activeVersion? flowName = some version)
    (defined : db.config.stepDefinition? flowName version.version version.map.startStep =
      some definition) :
    ((((db.insertProcess flowName version.version businessKey data).insertEvent db.nextId none
      .processStarted).placeStep db.nextId definition).view db.nextId).Trailed db.config := by
  have startRows := Db.startRows rows flowName version.version businessKey data
  obtain ⟨_, noSteps, _⟩ := rows.view_fresh
  rw [view_placeStep _ _ _ startRows.stepBound, if_pos rfl, view_insertEvent,
    view_insertProcess _ _ _ _ _ rows.processBound, if_pos rfl]
  intro process found
  simp only [View.place, View.log, Option.map_some, Option.some.injEq] at found
  subst found
  have key := stepDefinition?_key defined
  have chosen := Table.first_mem active
  simp only [List.mem_filter, decide_eq_true_eq] at chosen
  refine ⟨[], ((db.insertProcess flowName version.version businessKey data).insertEvent db.nextId
    none .processStarted).placedStep db.nextId definition, ?_, by simp,
    ⟨version, chosen.1, chosen.2.1, rfl, ?_⟩, rfl, ?_, ?_⟩
  · simp [View.place, View.log, noSteps]
  · simp [placedStep, key.2.2]
  · rcases definition with ⟨_, _, _, stepType, _⟩
    cases stepType <;>
      simp [placedProcess, StepType.processState, placedStep, StepType.entryState]
  · rcases definition with ⟨_, _, _, stepType, _⟩
    cases stepType <;> simp [placedProcess, StepType.processState]

theorem buryJob_trailed (sound : db.Sound) (trailed : db.Trailed) {job : Job}
    (member : job ∈ db.workflow.jobs) (live : job.state.live = true) :
    ((db.buryJob job).view job.processId).Trailed db.config := by
  obtain ⟨process, step, found, _, state, runs, openStep⟩ := sound.view_running member live
  obtain ⟨earlier, last, trail⟩ := trailed job.processId process found
  obtain rfl := trail.live openStep
  rw [view_buryJob, if_pos rfl, ← runs]
  intro after present
  simp only [View.log, View.updateSteps, View.updateJobs, View.updateProcess, found,
    Option.map_some, Option.some.injEq] at present
  subst present
  obtain ⟨updated, walk, head⟩ := @Trail.relast _ _ _ _ _ trail (view_stepIds sound.rows _)
    (fun row => { row with state := .failed }) rfl
  obtain ⟨version, versionMember, named, numbered, start⟩ := trail.first
  refine ⟨earlier, { step with state := .failed }, updated, walk,
    ⟨version, versionMember, named, numbered, head.trans start⟩, trail.current, (by simp), fun _ =>
      ⟨rfl, { job with state := .dead, leaseOwner := none, leaseUntil := none }, ?_, runs.symm, rfl⟩⟩
  exact Table.mem_update.mpr ⟨job, mem_view_jobs.mpr ⟨member, rfl⟩, by simp⟩

end Db

theorem EngineMove.trailed_own {processId : Nat} {db later : Db}
    (move : EngineMove processId db later) (sound : db.Sound) (trailed : db.Trailed) :
    (later.view processId).Trailed db.config := by
  have rows := sound.rows
  have unique := Db.view_stepIds rows
  have leasedLive : ∀ {job : Job} {owner : Option String} {leaseVersion : Option Int},
      job.leaseIsStale owner leaseVersion = false → job.state.live = true := by
    intro job owner leaseVersion held
    rw [(held_leased held).1]
    rfl
  cases move with
  | ticked => exact trailed processId
  | swept => exact trailed processId
  | applied => exact trailed processId
  | started absent active defined => exact Db.startStep_trailed rows active defined
  | stored =>
      rw [Db.view_insertEvent, Db.view_insertSignal]
      exact (trailed _).of_same rfl rfl rfl
  | @signalled _ process step definition next signal transition owner member owns waits waiting
      defined ready leads placed =>
      have found : (db.view process.id).process = some process := rows.process? owner
      obtain ⟨_, steps, _⟩ := (sound.settled process.id).of_waiting found
        (Db.mem_view_steps.mpr ⟨member, owns⟩) waiting (by rw [waits]; simp)
      obtain ⟨earlier, last, trail⟩ := trailed process.id process found
      have openStep : step ∈ (db.view process.id).liveSteps := by rw [steps]; simp
      obtain rfl := trail.live openStep
      rw [Db.view_placeStep _ _ _ (Db.consumeSignal_rows rows _ _ _ _).stepBound, if_pos rfl,
        Db.view_consumeSignal]
      exact trail.advance (unique _) _ _ _ found rfl leads placed
  | @leased _ job owner leaseMs member live =>
      obtain ⟨process, step, found, _, state, runs, openStep⟩ := sound.view_running member live
      obtain ⟨earlier, last, trail⟩ := trailed job.processId process found
      obtain rfl := trail.live openStep
      rw [Db.view_leaseJob, ← runs]
      exact @Trail.stay _ _ _ _ _ trail (unique _) _ (fun row => { row with state := .running }) rfl
        found rfl (by simp [state])
  | @disabled _ job row attemptId member live same =>
      rw [Db.disableJob_eq, Db.buryJob_congr same, ← (Db.same_keys same).2.1]
      exact @Db.buryJob_trailed (db.updateAttempts _ _) ⟨rows, sound.settled⟩ trailed _ member
        (by rw [live]; rfl)
  | @finished _ job step process owner outcome leaseVersion transition next member held stepMember
      runs processMember owns leads placed =>
      obtain ⟨running, openStep, found, _, state, opened, isOpen⟩ :=
        sound.view_running member (leasedLive held)
      have found' : (db.view job.processId).process = some process := by
        rw [← owns]
        exact rows.process? processMember
      cases found.symm.trans found'
      obtain ⟨earlier, last, trail⟩ := trailed job.processId process found
      obtain rfl := trail.live isOpen
      rw [Db.view_placeStep _ _ _ (Db.completeJob_rows rows _ _ _).stepBound, if_pos rfl,
        Db.view_completeJob, ← opened, ← owns]
      rw [← owns] at found trail
      exact trail.advance (unique _) _ _ _ found rfl leads placed
  | @retried _ job owner leaseVersion errorCode nextAttemptAt member held =>
      obtain ⟨process, step, found, _, state, runs, openStep⟩ :=
        sound.view_running member (leasedLive held)
      obtain ⟨earlier, last, trail⟩ := trailed job.processId process found
      rw [Db.view_scheduleRetry]
      refine @Trail.stay _ _ _ _ _ trail (unique _) _ id rfl found ?_ (by simp [state])
      simp [View.updateJobs, Table.update, Db.failAttempt, Db.view_updateAttempts]
  | died errorCode member held =>
      exact @Db.buryJob_trailed (db.failAttempt _ _ errorCode) ⟨rows, sound.settled⟩ trailed _
        member (leasedLive held)
  | @decided _ process step decision outcome transition next principal reasonHash processMember
      member owns manual waiting known undecided leads placed =>
      have found : (db.view process.id).process = some process := rows.process? processMember
      obtain ⟨_, steps, _⟩ := (sound.settled process.id).of_waiting found
        (Db.mem_view_steps.mpr ⟨member, owns⟩) waiting (by rw [manual]; simp)
      obtain ⟨earlier, last, trail⟩ := trailed process.id process found
      have openStep : step ∈ (db.view process.id).liveSteps := by rw [steps]; simp
      obtain rfl := trail.live openStep
      rw [Db.view_placeStep _ _ _ (Db.decide_rows rows _ _ _ _ _ _).stepBound, if_pos rfl,
        Db.view_completeManual, Db.view_insertDecision]
      exact trail.advance (unique _) _ _ _ found rfl leads placed

theorem EngineMove.trailed {processId : Nat} {db later : Db} (move : EngineMove processId db later)
    (sound : db.Sound) (trailed : db.Trailed) : later.Trailed := by
  intro other
  rw [move.config_eq]
  by_cases same : other = processId
  · exact same ▸ move.trailed_own sound trailed
  · rw [move.frame sound.rows same]
    exact trailed other

theorem reached_trailed {config : Config} {clock : Nat → Time} {digest : String → String}
    (calls : List Call) : (reached config clock digest calls).db.Trailed := by
  refine reached_invariant Db.Trailed ?_ ?_ ?_ ?_ calls
  · intro processId before after sound _ holds move
    exact move.trailed sound holds
  · intro before after _ _ holds move processId
    rw [move.config_eq, Db.view, move.workflow_eq]
    exact holds processId
  · intro target operation before after _ _ holds move processId
    rw [move.config_eq, Db.view, move.workflow_eq]
    exact holds processId
  · intro processId process found
    simp [Db.view, Db.initial, Workflow.process?, Table.lookup] at found

end PaymentWorkflow
