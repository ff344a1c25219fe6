import PaymentWorkflow.EngineCore

/-!
What the composite updates of the engine do to each table, with every intermediate update
of one row merged into one.
-/

namespace PaymentWorkflow

def StepType.entryState : StepType → StepState
  | .automatic => .ready
  | .waitSignal | .manual => .waiting
  | .endStep => .completed

def StepType.processState : StepType → ProcessState
  | .automatic => .running
  | .waitSignal => .waitingSignal
  | .manual => .waitingManual
  | .endStep => .completed

namespace Db

def placedStep (db : Db) (processId : Nat) (definition : StepDefinition) : StepInstance where
  id := db.nextId
  processId := processId
  stepKey := definition.stepKey
  stepType := definition.stepType
  state := definition.stepType.entryState
  outcome := if definition.stepType = .endStep then definition.params.outcome else none
  enteredAt := db.now

def placedJobs (db : Db) (processId : Nat) (definition : StepDefinition) : List Job :=
  if definition.stepType = .automatic then
    [{ id := db.nextId + 1, processId, stepInstanceId := db.nextId, executionId := db.nextId + 2
       state := .ready, leaseOwner := none, leaseVersion := 0, leaseUntil := none
       attemptCount := 0, nextAttemptAt := some (db.clock (db.ticks + 1))
       createdAt := db.clock (db.ticks + 2) }]
  else []

def placedEvents (db : Db) (processId : Nat) (definition : StepDefinition) :
    List WorkflowEvent :=
  ⟨processId, some db.nextId, .stepEntered⟩ ::
    (if definition.stepType = .endStep then
      [⟨processId, some db.nextId, .stepCompleted⟩, ⟨processId, some db.nextId, .processCompleted⟩]
    else [])

def placedProcess (definition : StepDefinition) (process : Process) : Process :=
  { process with
    currentStepKey := some definition.stepKey, state := definition.stepType.processState }

section Place

variable (db : Db) (processId : Nat) (definition : StepDefinition)

theorem placeStep_processes :
    (db.placeStep processId definition).workflow.processes =
      Table.update (fun row => row.id = processId) (placedProcess definition)
        db.workflow.processes := by
  rcases definition with ⟨_, _, _, stepType, _⟩
  cases stepType <;>
    (simp [placeStep, Table.update_update]; rfl)

theorem placeStep_steps (bound : ∀ row ∈ db.workflow.steps, row.id < db.nextId) :
    (db.placeStep processId definition).workflow.steps =
      db.workflow.steps ++ [db.placedStep processId definition] := by
  have fresh : ∀ change, Table.update (fun row : StepInstance => row.id = db.nextId) change
      db.workflow.steps = db.workflow.steps := by
    intro change
    apply Table.update_eq_self
    intro row member
    have := bound row member
    simp only [decide_eq_false_iff_not]
    omega
  rcases definition with ⟨_, _, _, stepType, _⟩
  cases stepType <;> simp [placeStep, placedStep, StepType.entryState, fresh]

@[simp] theorem placeStep_jobs :
    (db.placeStep processId definition).workflow.jobs =
      db.workflow.jobs ++ db.placedJobs processId definition := by
  rcases definition with ⟨_, _, _, stepType, _⟩
  cases stepType <;> simp [placeStep, placedJobs, now]

@[simp] theorem placeStep_events :
    (db.placeStep processId definition).workflow.events =
      db.workflow.events ++ db.placedEvents processId definition := by
  rcases definition with ⟨_, _, _, stepType, _⟩
  cases stepType <;> simp [placeStep, placedEvents]

@[simp] theorem placeStep_attempts :
    (db.placeStep processId definition).workflow.attempts = db.workflow.attempts := by
  rcases definition with ⟨_, _, _, stepType, _⟩
  cases stepType <;> simp [placeStep]

@[simp] theorem placeStep_signals :
    (db.placeStep processId definition).workflow.signals = db.workflow.signals := by
  rcases definition with ⟨_, _, _, stepType, _⟩
  cases stepType <;> simp [placeStep]

@[simp] theorem placeStep_config :
    (db.placeStep processId definition).config = db.config := by
  rcases definition with ⟨_, _, _, stepType, _⟩
  cases stepType <;> rfl

@[simp] theorem placeStep_delivery :
    (db.placeStep processId definition).delivery = db.delivery := by
  rcases definition with ⟨_, _, _, stepType, _⟩
  cases stepType <;> rfl

@[simp] theorem placeStep_payment :
    (db.placeStep processId definition).payment = db.payment := by
  rcases definition with ⟨_, _, _, stepType, _⟩
  cases stepType <;> rfl

@[simp] theorem placeStep_dispatches :
    (db.placeStep processId definition).dispatches = db.dispatches := by
  rcases definition with ⟨_, _, _, stepType, _⟩
  cases stepType <;> rfl

@[simp] theorem placeStep_digest :
    (db.placeStep processId definition).digest = db.digest := by
  rcases definition with ⟨_, _, _, stepType, _⟩
  cases stepType <;> rfl

@[simp] theorem placeStep_clock :
    (db.placeStep processId definition).clock = db.clock := by
  rcases definition with ⟨_, _, _, stepType, _⟩
  cases stepType <;> rfl

variable {db processId definition} in
theorem ticks_le_placeStep {bound : Nat} (below : bound ≤ db.ticks) :
    bound ≤ (db.placeStep processId definition).ticks := by
  rcases definition with ⟨_, _, _, stepType, _⟩
  cases stepType <;> simp [placeStep] <;> omega

theorem placeStep_nextId :
    (db.placeStep processId definition).nextId =
      db.nextId + 1 + 2 * (db.placedJobs processId definition).length := by
  rcases definition with ⟨_, _, _, stepType, _⟩
  cases stepType <;> simp [placeStep, placedJobs]

theorem nextId_lt_placeStep : db.nextId < (db.placeStep processId definition).nextId := by
  rw [placeStep_nextId]
  omega

variable {db processId definition} in
theorem nextId_le_placeStep {bound : Nat} (below : bound ≤ db.nextId) :
    bound ≤ (db.placeStep processId definition).nextId :=
  Nat.le_trans below (Nat.le_of_lt (nextId_lt_placeStep db processId definition))

end Place

end Db

end PaymentWorkflow
