import PaymentWorkflow.EngineMoves
import PaymentWorkflow.Runs

/-!
The recursive functions of the engine lead from a sound database to a sound one by moves of
the process they are called for, and leave no stored signal unused that the process waits for.
-/

namespace PaymentWorkflow

namespace View

def accepted (view : View) (signalType : Option String) : List Signal :=
  view.signals.filter fun row => some row.signalType = signalType ∧ row.status = .accepted

/-- No signal is left over that the live step waits for. -/
def Quiet (config : Config) (view : View) : Prop :=
  ∀ process, view.process = some process → ∀ step ∈ view.liveSteps, step.stepType = .waitSignal →
    ∀ definition, config.stepDefinition? process.flowName process.flowVersion step.stepKey =
      some definition → view.accepted definition.params.signalType = []

theorem quiet_of_notWaiting {config : Config} {view : View}
    (none : ∀ step ∈ view.liveSteps, step.stepType ≠ .waitSignal) : view.Quiet config :=
  fun _ _ step member waits => absurd waits (none step member)

end View

namespace Db

variable {db later : Db} {processId : Nat}

theorem readySignal?_eq_none {signalType : Option String} :
    db.readySignal? processId signalType = none ↔
      (db.view processId).accepted signalType = [] := by
  rw [readySignal?, Table.first_eq_none, View.accepted, view, List.filter_filter]
  have same : ∀ row : Signal,
      decide (row.processId = processId ∧ some row.signalType = signalType ∧
        row.status = .accepted) =
      (decide (some row.signalType = signalType ∧ row.status = .accepted) &&
        decide (row.processId = processId)) := by
    intro row
    rw [Bool.eq_iff_iff]
    simp only [decide_eq_true_eq, Bool.and_eq_true]
    exact and_comm
  simp only [same]

structure Reaches (processId : Nat) (db later : Db) : Prop where
  moves : EngineMoves processId db later
  quiet : (later.view processId).Quiet later.config

theorem Reaches.sound (reaches : Reaches processId db later) (sound : db.Sound) : later.Sound :=
  reaches.moves.sound sound

theorem Reaches.after {middle : Db} (first : EngineMoves processId db middle)
    (rest : Reaches processId middle later) : Reaches processId db later :=
  ⟨first.trans rest.moves, rest.quiet⟩

end Db

/-- What `_enter_step` promises: it places the step, and goes on by moves from there. -/
def Enters (enter : EnterStep) : Prop :=
  ∀ (db : Db) (processId : Nat) (stepKey : String) (later : Db),
    enter db processId stepKey = .ok later →
      ∃ process definition, db.workflow.process? processId = some process ∧
        db.config.stepDefinition? process.flowName process.flowVersion stepKey = some definition ∧
          (db.Rows → (db.placeStep processId definition).Sound →
            Db.Reaches processId (db.placeStep processId definition) later)

section Recursion

variable {enter : EnterStep} {db later : Db} {processId : Nat}

theorem advance_reaches (enters : Enters enter) {process : Process} {outcome : Option String}
    (found : db.workflow.process? processId = some process)
    (open_ : process.state ≠ .completed ∧ process.state ≠ .failed)
    (returned : advance enter db processId outcome = .ok later) :
    ∃ transition next, db.config.transition? process.flowName process.flowVersion
        process.currentStepKey outcome = some transition ∧
      db.config.stepDefinition? process.flowName process.flowVersion transition.toStepKey =
        some next ∧
      (db.Rows → (db.placeStep processId next).Sound →
        Db.Reaches processId (db.placeStep processId next) later) := by
  simp only [advance, found, open_.1, open_.2, or_self, if_false] at returned
  split at returned
  · simp at returned
  · rename_i transition leads
    obtain ⟨other, next, otherFound, placed, reaches⟩ := enters _ _ _ _ returned
    rw [found] at otherFound
    obtain rfl := Option.some.inj otherFound
    exact ⟨transition, next, leads, placed, reaches⟩

theorem applyReadySignals_reaches (enters : Enters enter) (sound : db.Sound) {process : Process}
    {step : StepInstance} {definition : StepDefinition}
    (owner : process ∈ db.workflow.processes) (member : step ∈ db.workflow.steps)
    (owns : step.processId = process.id) (waits : step.stepType = .waitSignal)
    (waiting : step.state = .waiting)
    (defined : db.config.stepDefinition? process.flowName process.flowVersion step.stepKey =
      some definition)
    (returned : applyReadySignals enter db process.id step.id definition.params = .ok later) :
    Db.Reaches process.id db later := by
  obtain ⟨current, steps, jobs, waitingState, _⟩ := (sound.settled process.id).of_waiting
    (sound.rows.process? owner) (Db.mem_view_steps.mpr ⟨member, owns⟩) waiting (by rw [waits]; simp)
  simp only [applyReadySignals] at returned
  split at returned
  · rename_i notReady
    cases returned
    refine ⟨.refl, ?_⟩
    intro other otherFound live liveMember _ otherDefinition otherDefined
    obtain rfl := Option.some.inj (otherFound.symm.trans (sound.rows.process? owner))
    rw [steps, List.mem_singleton] at liveMember
    subst liveMember
    obtain rfl := Option.some.inj (otherDefined.symm.trans defined)
    exact Db.readySignal?_eq_none.mp notReady
  · rename_i signal ready
    have found : (db.consumeSignal process.id step.id definition.params.outcome
        signal).workflow.process? process.id = some process := sound.rows.process? owner
    obtain ⟨transition, next, leads, placed, reaches⟩ := advance_reaches enters found
      (by rw [waitingState waits]; simp) returned
    have move := EngineMove.signalled owner member owns waits waiting defined ready leads placed
    exact Db.Reaches.after (.single move) (reaches (Db.consumeSignal_rows sound.rows _ _ _ _)
      (move.sound sound))

theorem stored_quiet {process : Process} {signalType messageId bodyHash : String}
    (quiet : (db.view process.id).Quiet db.config)
    (idle : ∀ step ∈ (db.view process.id).liveSteps, step.stepType = .waitSignal →
      ∀ definition, db.config.stepDefinition? process.flowName process.flowVersion step.stepKey =
        some definition → definition.params.signalType ≠ some signalType)
    (found : db.workflow.process? process.id = some process) :
    (((db.insertSignal messageId process.id signalType bodyHash).insertEvent process.id none
      .signalAccepted).view process.id).Quiet db.config := by
  rw [Db.view_insertEvent, Db.view_insertSignal]
  intro other otherFound step member waits definition defined
  have same : other = process := Option.some.inj (otherFound.symm.trans found)
  subst same
  have before := quiet other otherFound step member waits definition defined
  have different := idle step member waits definition defined
  simp only [View.accepted, View.log, List.filter_append] at before ⊢
  rw [before]
  simp [Ne.symm different]

/-- A new signal is stored before anything else happens; any other call changes nothing. -/
theorem acceptSignalBody_cases (enters : Enters enter) (sound : db.Sound)
    (quiet : (db.view processId).Quiet db.config) {signalType messageId : String} {payload : Json}
    {reply : SignalReply}
    (returned : acceptSignalBody enter db processId signalType messageId payload =
      .ok (later, reply)) :
    later = db ∧ reply = .duplicate ∧ db.workflow.signal? messageId ≠ none ∨
      reply = .accepted ∧ EngineMove processId db ((db.insertSignal messageId processId signalType
        (db.digest payload.render)).insertEvent processId none .signalAccepted) ∧
          Db.Reaches processId ((db.insertSignal messageId processId signalType
            (db.digest payload.render)).insertEvent processId none .signalAccepted) later := by
  simp only [acceptSignalBody] at returned
  split at returned
  · simp at returned
  split at returned
  · simp at returned
  split at returned
  · simp at returned
  rename_i process found
  obtain ⟨owner, rfl⟩ := Table.lookup_mem found
  split at returned
  · simp at returned
  rename_i declared
  split at returned
  · rename_i existing known
    split at returned
    · cases returned
      exact .inl ⟨rfl, rfl, by rw [known]; nofun⟩
    · simp at returned
  rename_i fresh
  split at returned
  · simp at returned
  rename_i unused
  have move := @EngineMove.stored db _ _ _ (db.digest payload.render) owner
    (by simpa using declared) fresh (by simpa using unused)
  have storedSound := move.sound sound
  right
  split at returned
  · rename_i absent
    cases returned
    refine ⟨rfl, move, .refl, stored_quiet quiet ?_ found⟩
    intro step member waits
    have none := Table.first_eq_none.mp absent
    obtain ⟨stepMember, owns⟩ := Db.mem_view_steps.mp (List.mem_filter.mp member).1
    have inside : step ∈ ([] : List StepInstance) := by
      rw [← none]
      simp [stepMember, owns, waits,
        ((sound.settled process.id).of_waits found member waits).2]
    simp at inside
  rename_i step stepFound
  obtain ⟨stepMember, owns, waits, waiting⟩ : step ∈ db.workflow.steps ∧
      step.processId = process.id ∧ step.stepType = .waitSignal ∧ step.state = .waiting := by
    simpa using Table.first_mem stepFound
  have only := ((sound.settled process.id).of_waiting found
    (Db.mem_view_steps.mpr ⟨stepMember, owns⟩) waiting (by rw [waits]; simp)).2.1
  split at returned
  · rename_i undefined
    cases returned
    refine ⟨rfl, move, .refl, stored_quiet quiet ?_ found⟩
    intro other member _ definition defined
    rw [only, List.mem_singleton] at member
    rw [member, undefined] at defined
    simp at defined
  rename_i definition defined
  split at returned
  · rename_i same
    obtain ⟨value, consumed, kept⟩ := Runs.bind_eq_ok.mp returned
    cases kept
    exact ⟨rfl, move, applyReadySignals_reaches enters storedSound owner stepMember owns waits
      waiting defined consumed⟩
  · rename_i different
    cases returned
    refine ⟨rfl, move, .refl, stored_quiet quiet ?_ found⟩
    intro other member _ otherDefinition otherDefined
    rw [only, List.mem_singleton] at member
    rw [member, defined] at otherDefined
    cases otherDefined
    exact different

theorem acceptSignalBody_reaches (enters : Enters enter) (sound : db.Sound)
    (quiet : (db.view processId).Quiet db.config) {signalType messageId : String} {payload : Json}
    {reply : SignalReply}
    (returned : acceptSignalBody enter db processId signalType messageId payload =
      .ok (later, reply)) : Db.Reaches processId db later := by
  rcases acceptSignalBody_cases enters sound quiet returned with ⟨rfl, _⟩ | ⟨_, move, reaches⟩
  · exact ⟨.refl, quiet⟩
  · exact Db.Reaches.after (.single move) reaches

theorem acceptSignal_reaches (enters : Enters enter) (sound : db.Sound)
    (quiet : (db.view processId).Quiet db.config) {signalType messageId : String} {payload : Json}
    {reply : SignalReply}
    (returned : acceptSignal enter db processId signalType messageId payload =
      .ok (later, reply)) : Db.Reaches processId db later := by
  simp only [acceptSignal] at returned
  split at returned
  · split at returned
    · split at returned
      · cases returned
        exact ⟨.refl, quiet⟩
      · simp at returned
    · split at returned
      · cases returned
        exact ⟨.refl, quiet⟩
      · simp at returned
  · exact acceptSignalBody_reaches enters sound quiet returned

theorem applyInboxForProcess_reaches (enters : Enters enter) (sound : db.Sound)
    (quiet : (db.view processId).Quiet db.config) {signalType : Option String}
    (returned : applyInboxForProcess enter db processId signalType = .ok later) :
    Db.Reaches processId db later := by
  simp only [applyInboxForProcess] at returned
  split at returned
  · cases returned
    exact ⟨.refl, quiet⟩
  · obtain ⟨⟨accepted, reply⟩, first, rest⟩ := Runs.bind_eq_ok.mp returned
    cases rest
    have reaches := acceptSignal_reaches enters sound quiet first
    exact ⟨reaches.moves.tail (.applied _ _), reaches.quiet⟩

theorem enterStepBody_enters (enters : Enters enter) : Enters (enterStepBody enter) := by
  intro db processId stepKey later returned
  simp only [enterStepBody] at returned
  split at returned
  · simp at returned
  rename_i process found
  split at returned
  · simp at returned
  rename_i definition defined
  refine ⟨process, definition, found, defined, ?_⟩
  intro rows sound
  have key := (stepDefinition?_key defined).2.2
  split at returned
  · rename_i waits
    obtain ⟨ready, first, rest⟩ := Runs.bind_eq_ok.mp returned
    obtain ⟨owner, rfl⟩ := Table.lookup_mem found
    have placedOwner : Db.placedProcess definition process ∈
        (db.placeStep process.id definition).workflow.processes := by
      rw [Db.placeStep_processes, Table.mem_update]
      exact ⟨process, owner, by simp⟩
    have placedMember : db.placedStep process.id definition ∈
        (db.placeStep process.id definition).workflow.steps := by
      rw [Db.placeStep_steps _ _ _ rows.stepBound]
      simp
    have reaches := applyReadySignals_reaches enters sound placedOwner placedMember rfl waits
      (by simp [Db.placedStep, waits, StepType.entryState])
      (by rw [Db.placeStep_config]; show db.config.stepDefinition? _ _ definition.stepKey = _
          rw [key]; exact defined) first
    exact Db.Reaches.after reaches.moves
      (applyInboxForProcess_reaches enters (reaches.sound sound) reaches.quiet rest)
  · rename_i notWaiting
    cases returned
    refine ⟨.refl, View.quiet_of_notWaiting ?_⟩
    intro step member waits
    obtain ⟨owner, rfl⟩ := Table.lookup_mem found
    have placed : ((db.placeStep process.id definition).view process.id).process =
        some (Db.placedProcess definition process) := by
      rw [Db.view_placeStep _ _ _ rows.stepBound, if_pos rfl]
      show (db.workflow.process? process.id).map _ = _
      rw [found]
      rfl
    have state := ((sound.settled process.id).of_waits placed member waits).1
    have entered : definition.stepType.processState = .waitingSignal := state
    cases stepType : definition.stepType <;> simp_all [StepType.processState]

theorem enterStep_enters : ∀ depth, Enters (enterStep depth) := by
  intro depth
  induction depth with
  | zero =>
      intro db processId stepKey later returned
      simp [enterStep] at returned
  | succ depth ih => exact enterStepBody_enters ih

end Recursion

end PaymentWorkflow
