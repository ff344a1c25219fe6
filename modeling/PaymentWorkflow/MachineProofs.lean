import PaymentWorkflow.EndingProofs
import PaymentWorkflow.Machine

/-!
The map of a flow as a machine over step keys that reads outcomes. The engine runs it: the step
instances of a process are the states passed, and what a process has left behind stays.
-/

namespace PaymentWorkflow

def FlowMap.machine (map : FlowMap) : Machine String (Option String) where
  start := map.startStep
  next key outcome := outcome.bind (map.target? key)

def View.outcomes (view : View) : List (Option String) :=
  view.steps.dropLast.map StepInstance.outcome

/-- The process is where the machine is after the outcomes recorded for it. -/
structure RunsMachine (map : FlowMap) (view : View) (process : Process) : Prop where
  path : map.machine.path view.outcomes = some (view.steps.map StepInstance.stepKey)
  current : map.machine.run view.outcomes = process.currentStepKey

theorem Config.Faithful.next {config : Config} (faithful : config.Faithful) {version : FlowVersion}
    (member : version ∈ config.flowVersions) {step next : StepInstance}
    (leads : Leads config version.flowName version.version step next) :
    version.map.machine.next step.stepKey step.outcome = some next.stepKey := by
  obtain ⟨_, transition, found, target⟩ := leads
  have matched := List.find?_some found
  simp only [decide_eq_true_eq] at matched
  have read := faithful.transition? member step.stepKey transition.outcome
  rw [matched.2.2.2, found, Option.map_some] at read
  simp only [FlowMap.machine, ← matched.2.2.2, Option.bind_some, ← read, target]

theorem Trail.runsMachine {config : Config} {view : View} {process : Process}
    {earlier : List StepInstance} {last : StepInstance}
    (trail : Trail config view process earlier last) (faithful : config.Faithful) :
    ∃ version ∈ config.flowVersions, version.flowName = process.flowName ∧
      version.version = process.flowVersion ∧ RunsMachine version.map view process := by
  obtain ⟨version, member, named, numbered, start⟩ := trail.first
  refine ⟨version, member, named, numbered, ?_⟩
  have passed : version.map.machine.path view.outcomes =
      some (view.steps.map StepInstance.stepKey) := by
    have walk := trail.walk
    rw [← named, ← numbered] at walk
    rw [View.outcomes, trail.steps]
    cases steps : earlier ++ [last] with
    | nil => simp at steps
    | cons first rest =>
        rw [steps] at walk start
        simp only [List.head?_cons, Option.map_some, Option.some.injEq] at start
        rw [Machine.path, show version.map.machine.start = first.stepKey from start.symm]
        exact Machine.pathFrom_of_chain (walk.imp fun left right => faithful.next member)
  refine ⟨passed, ?_⟩
  rw [Machine.run, Machine.runFrom_of_pathFrom passed, trail.steps, trail.current]
  simp

/-! What a process has left behind. -/

def View.Extends (view after : View) : Prop := view.steps.dropLast <+: after.steps.dropLast

section Extends

variable {view after : View} {config : Config} {process : Process} {earlier : List StepInstance}
  {last : StepInstance}

theorem View.Extends.of_same (steps : after.steps = view.steps) : view.Extends after :=
  ⟨[], by rw [steps, List.append_nil]⟩

theorem Trail.extends_stay (trail : Trail config view process earlier last)
    (unique : (view.steps.map StepInstance.id).Nodup) {change : StepInstance → StepInstance}
    (steps : after.steps = Table.update (fun row => row.id = last.id) change view.steps) :
    view.Extends after := by
  rw [trail.steps] at unique
  rw [View.Extends, steps, trail.steps, Table.update_last unique]
  simp

theorem Trail.extends_advance (trail : Trail config view process earlier last)
    (unique : (view.steps.map StepInstance.id).Nodup) {change : StepInstance → StepInstance}
    {next : StepInstance}
    (steps : after.steps = Table.update (fun row => row.id = last.id) change view.steps ++ [next]) :
    view.Extends after := by
  rw [trail.steps] at unique
  rw [View.Extends, steps, trail.steps, Table.update_last unique]
  simp

end Extends

namespace Db

variable {db : Db}

theorem buryJob_extends (sound : db.Sound) (trailed : db.Trailed) {job : Job}
    (member : job ∈ db.workflow.jobs) (live : job.state.live = true) :
    (db.view job.processId).Extends ((db.buryJob job).view job.processId) := by
  obtain ⟨process, step, found, _, _, runs, openStep⟩ := sound.view_running member live
  obtain ⟨earlier, last, trail⟩ := trailed job.processId process found
  obtain rfl := trail.live openStep
  rw [view_buryJob, if_pos rfl, ← runs]
  exact trail.extends_stay (view_stepIds sound.rows _) rfl

end Db

theorem EngineMove.extends_own {processId : Nat} {db later : Db}
    (move : EngineMove processId db later) (sound : db.Sound) (trailed : db.Trailed) :
    (db.view processId).Extends (later.view processId) := by
  have rows := sound.rows
  have unique := Db.view_stepIds rows
  have leasedLive : ∀ {job : Job} {owner : Option String} {leaseVersion : Option Int},
      job.leaseIsStale owner leaseVersion = false → job.state.live = true := by
    intro job owner leaseVersion held
    rw [(held_leased held).1]
    rfl
  cases move with
  | ticked => exact .of_same rfl
  | swept => exact .of_same rfl
  | applied => exact .of_same rfl
  | started =>
      rw [View.Extends, rows.view_fresh.2.1]
      exact List.nil_prefix
  | stored =>
      rw [Db.view_insertEvent, Db.view_insertSignal]
      exact .of_same rfl
  | @signalled _ process step definition next signal transition owner member owns waits waiting =>
      have found : (db.view process.id).process = some process := rows.process? owner
      obtain ⟨_, steps, _⟩ := (sound.settled process.id).of_waiting found
        (Db.mem_view_steps.mpr ⟨member, owns⟩) waiting (by rw [waits]; simp)
      obtain ⟨earlier, last, trail⟩ := trailed process.id process found
      have openStep : step ∈ (db.view process.id).liveSteps := by rw [steps]; simp
      obtain rfl := trail.live openStep
      rw [Db.view_placeStep _ _ _ (Db.consumeSignal_rows rows _ _ _ _).stepBound, if_pos rfl,
        Db.view_consumeSignal]
      exact trail.extends_advance (unique _) rfl
  | @leased _ job owner leaseMs member live =>
      obtain ⟨process, step, found, _, _, runs, openStep⟩ := sound.view_running member live
      obtain ⟨earlier, last, trail⟩ := trailed job.processId process found
      obtain rfl := trail.live openStep
      rw [Db.view_leaseJob, ← runs]
      exact trail.extends_stay (unique _) rfl
  | @disabled _ job row attemptId member live same =>
      rw [Db.disableJob_eq, Db.buryJob_congr same, ← (Db.same_keys same).2.1]
      exact @Db.buryJob_extends (db.updateAttempts _ _) ⟨rows, sound.settled⟩ trailed _ member
        (by rw [live]; rfl)
  | @finished _ job step process owner outcome leaseVersion transition next member held =>
      obtain ⟨running, openStep, found, _, _, opened, isOpen⟩ :=
        sound.view_running member (leasedLive held)
      obtain ⟨earlier, last, trail⟩ := trailed job.processId running found
      obtain rfl := trail.live isOpen
      rw [Db.view_placeStep _ _ _ (Db.completeJob_rows rows _ _ _).stepBound, if_pos rfl,
        Db.view_completeJob, ← opened]
      exact trail.extends_advance (unique _) rfl
  | retried =>
      rw [Db.view_scheduleRetry]
      exact .of_same rfl
  | died errorCode member held =>
      exact @Db.buryJob_extends (db.failAttempt _ _ errorCode) ⟨rows, sound.settled⟩ trailed _
        member (leasedLive held)
  | @decided _ process step decision outcome transition next principal reasonHash processMember
      member owns manual waiting =>
      have found : (db.view process.id).process = some process := rows.process? processMember
      obtain ⟨_, steps, _⟩ := (sound.settled process.id).of_waiting found
        (Db.mem_view_steps.mpr ⟨member, owns⟩) waiting (by rw [manual]; simp)
      obtain ⟨earlier, last, trail⟩ := trailed process.id process found
      have openStep : step ∈ (db.view process.id).liveSteps := by rw [steps]; simp
      obtain rfl := trail.live openStep
      rw [Db.view_placeStep _ _ _ (Db.decide_rows rows _ _ _ _ _ _).stepBound, if_pos rfl,
        Db.view_completeManual, Db.view_insertDecision]
      exact trail.extends_advance (unique _) rfl

theorem EngineMove.extends {processId : Nat} {db later : Db} (move : EngineMove processId db later)
    (sound : db.Sound) (trailed : db.Trailed) (other : Nat) :
    (db.view other).Extends (later.view other) := by
  by_cases same : other = processId
  · exact same ▸ move.extends_own sound trailed
  · rw [move.frame sound.rows same]
    exact .of_same rfl

section Runs

variable {config : Config} {clock : Nat → Time} {digest : String → String}

theorem SystemMoves.extends {db later : Db} (moves : SystemMoves db later) (steady : db.Steady)
    (trailed : db.Trailed) (processId : Nat) :
    (db.view processId).Extends (later.view processId) := by
  refine (moves.invariant
    (fun after => after.Trailed ∧ (db.view processId).Extends (after.view processId))
    ?_ ?_ ?_ steady ⟨trailed, .of_same rfl⟩).2
  · rintro owner before after sound _ ⟨holds, kept⟩ move
    exact ⟨move.trailed sound holds, kept.trans (move.extends sound holds processId)⟩
  · rintro before after _ _ ⟨holds, kept⟩ move
    simp only [Db.Trailed, Db.view, move.config_eq, move.workflow_eq] at holds kept ⊢
    exact ⟨holds, kept⟩
  · rintro target operation before after _ _ ⟨holds, kept⟩ move
    simp only [Db.Trailed, Db.view, move.config_eq, move.workflow_eq] at holds kept ⊢
    exact ⟨holds, kept⟩

/-- The engine runs the published map as a machine, and takes back no outcome the machine read. -/
theorem engine_runs_map {config : Config} (published : Published config) (clock : Nat → Time)
    (digest : String → String) (calls more : List Call) :
    (∀ process ∈ (reached config clock digest calls).db.workflow.processes,
      ∃ version ∈ config.flowVersions, version.flowName = process.flowName ∧
        version.version = process.flowVersion ∧
          RunsMachine version.map ((reached config clock digest calls).db.view process.id)
            process) ∧
    ∀ processId, ((reached config clock digest calls).db.view processId).outcomes <+:
      ((reached config clock digest (calls ++ more)).db.view processId).outcomes := by
  have steady := @reached_steady config clock digest calls
  have same := @reached_config config clock digest calls
  have trailed := @reached_trailed config clock digest calls
  have faithful : (reached config clock digest calls).db.config.Faithful := by
    rw [same]
    exact published.faithful
  constructor
  · intro process member
    obtain ⟨earlier, last, trail⟩ := trailed process.id process
      (steady.calm.sound.rows.process? member)
    have runs := trail.runsMachine faithful
    rwa [same] at runs
  · intro processId
    exact ((reached_moves calls more).extends steady trailed processId).map StepInstance.outcome

theorem engine_runs_map_prepared :
    ∃ version ∈ Seed.config.flowVersions, version.flowName = "payment-processing" ∧
      version.version = 1 ∧
        RunsMachine version.map ((seeded Seed.prepared).db.view 1) Seed.preparedProcess :=
  (engine_runs_map Seed.published (fun tick => (tick : Int)) id Seed.prepared []).1
    Seed.preparedProcess (by decide +kernel)

end Runs

end PaymentWorkflow
