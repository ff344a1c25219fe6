import PaymentWorkflow.SystemCalls
import PaymentWorkflow.SeedCore

/-! Runs of the system from the empty tables, and the structure every process keeps in them. -/

namespace PaymentWorkflow

def Db.initial (config : Config) (clock : Nat → Time) (digest : String → String) : Db where
  config
  workflow := ⟨[], [], [], [], [], []⟩
  delivery := ⟨[], [], [], []⟩
  payment := ⟨[], [], []⟩
  dispatches := []
  nextId := 0
  ticks := 0
  clock
  digest

def fresh (config : Config) (clock : Nat → Time) (digest : String → String) : System :=
  ⟨Db.initial config clock digest, []⟩

/-- The system after a sequence of calls, each committed or rolled back. -/
def reached (config : Config) (clock : Nat → Time) (digest : String → String) (calls : List Call) :
    System :=
  Runs.run step (fresh config clock digest) calls

section Runs

variable {config : Config} {clock : Nat → Time} {digest : String → String}

theorem reached_append (calls more : List Call) :
    reached config clock digest (calls ++ more) =
      Runs.run step (reached config clock digest calls) more :=
  Runs.run_append _ _ _ _

theorem initial_steady : (Db.initial config clock digest).Steady where
  calm := {
    sound := {
      rows := by
        constructor <;> simp [Db.initial, Db.fixed]
      settled := by
        intro processId process found
        simp [Db.view, Db.initial, Workflow.process?, Table.lookup] at found }
    quiet := by
      intro processId process found
      simp [Db.view, Db.initial, Workflow.process?, Table.lookup] at found }
  ledger := by
    constructor <;> simp [Db.initial]

theorem step_cases {system : System} (steady : system.db.Steady) (call : Call) :
    CallMoves (call.invoked? system.db) system.db (step system call).db := by
  simp only [step]
  split
  · cases returned : execDb system.db call with
    | none => exact .other .refl
    | some later => exact execDb_moves steady returned
  · exact .other .refl

theorem step_moves {system : System} (steady : system.db.Steady) (call : Call) :
    SystemMoves system.db (step system call).db := (step_cases steady call).system

theorem run_moves : ∀ (calls : List Call) (system : System), system.db.Steady →
    SystemMoves system.db (Runs.run step system calls).db := by
  intro calls
  induction calls with
  | nil => intro system _; exact .refl
  | cons call rest ih =>
      intro system steady
      have first := step_moves steady call
      exact first.trans (ih (step system call) (first.steady steady))

theorem reached_steady (calls : List Call) : (reached config clock digest calls).db.Steady :=
  (run_moves calls _ initial_steady).steady initial_steady

theorem reached_moves (calls more : List Call) :
    SystemMoves (reached config clock digest calls).db
      (reached config clock digest (calls ++ more)).db := by
  rw [reached_append]
  exact run_moves more _ (reached_steady calls)

theorem reached_config (calls : List Call) :
    (reached config clock digest calls).db.config = config :=
  (run_moves calls (fresh config clock digest) initial_steady).config_eq

/-- An invariant that every move keeps holds in every state a run reaches. -/
theorem SystemMoves.invariant {db later : Db} (holds : Db → Prop)
    (engine : ∀ {processId : Nat} {before after : Db}, before.Sound → before.Ledger →
      holds before → EngineMove processId before after → holds after)
    (outside : ∀ {before after : Db}, before.Sound → before.Ledger → holds before →
      OutsideMove before after → holds after)
    (close : ∀ {target : Target} {operation : Operation} {before after : Db}, before.Sound →
      before.Ledger → holds before → CloseMove target operation before after → holds after)
    (moves : SystemMoves db later) (steady : db.Steady) (initially : holds db) : holds later := by
  have engineRun : ∀ {processId : Nat} {before after : Db}, EngineMoves processId before after →
      before.Steady → holds before → holds after := by
    intro processId before after chain steady holdsBefore
    induction chain with
    | refl => exact holdsBefore
    | tail earlier move ih =>
        exact engine (EngineMoves.sound earlier steady.calm.sound)
          (steady.ledger.of_engine earlier) ih move
  induction moves with
  | refl => exact initially
  | tail earlier move ih =>
      have between := SystemMoves.steady earlier steady
      rcases move with (⟨processId, reaches⟩ | move) | ⟨target, operation, move⟩
      · exact engineRun reaches.moves between ih
      · exact outside between.calm.sound between.ledger ih move
      · exact close between.calm.sound between.ledger ih move

theorem reached_invariant (holds : Db → Prop)
    (engine : ∀ {processId : Nat} {before after : Db}, before.Sound → before.Ledger →
      holds before → EngineMove processId before after → holds after)
    (outside : ∀ {before after : Db}, before.Sound → before.Ledger → holds before →
      OutsideMove before after → holds after)
    (close : ∀ {target : Target} {operation : Operation} {before after : Db}, before.Sound →
      before.Ledger → holds before → CloseMove target operation before after → holds after)
    (initially : holds (Db.initial config clock digest)) (calls : List Call) :
    holds (reached config clock digest calls).db :=
  SystemMoves.invariant holds engine outside close
    (run_moves calls (fresh config clock digest) initial_steady) initial_steady initially

end Runs

/-! The structural invariant, as a relation between a process and what it has live. -/

structure Coherent (view : View) (process : Process) : Prop where
  oneLiveStep : view.liveSteps.length ≤ 1
  current : ∀ step ∈ view.liveSteps, process.currentStepKey = some step.stepKey
  running : process.state = .running ↔ ∃ step job, view.liveSteps = [step] ∧
    step.stepType = .automatic ∧ view.liveJobs = [job]
  jobOfStep : ∀ step ∈ view.liveSteps, ∀ job ∈ view.liveJobs, job.stepInstanceId = step.id
  otherJobs : ∀ job ∈ view.jobs, job ∉ view.liveJobs → job.state = .succeeded ∨ job.state = .dead
  waitingSignal : process.state = .waitingSignal ↔ ∃ step, view.liveSteps = [step] ∧
    step.stepType = .waitSignal ∧ step.state = .waiting
  waitingManual : process.state = .waitingManual ↔ ∃ step, view.liveSteps = [step] ∧
    step.stepType = .manual ∧ step.state = .waiting
  ended : process.state = .completed ∨ process.state = .failed ↔
    view.liveSteps = [] ∧ view.liveJobs = []
  notCreated : process.state ≠ .created

theorem coherent_of_settled {view : View} {process : Process} (settled : view.Settled)
    (found : view.process = some process) : Coherent view process := by
  have otherJobs : ∀ job ∈ view.jobs, job ∉ view.liveJobs →
      job.state = .succeeded ∨ job.state = .dead := by
    intro job member outside
    have notLive : job.state.live = false := by
      simpa [View.liveJobs, member] using outside
    cases state : job.state <;> rw [state] at notLive <;> simp_all [JobState.live]
  have shape := settled process found
  generalize stepsEq : view.liveSteps = steps at shape
  generalize jobsEq : view.liveJobs = jobs at shape
  cases shape with
  | running step job state current automatic runs =>
      constructor <;> simp [stepsEq, jobsEq, state, current, automatic, runs]
      simpa [jobsEq] using otherJobs
  | waitingSignal step state current waits waiting =>
      constructor <;> simp [stepsEq, jobsEq, state, current, waits, waiting]
      simpa [jobsEq] using otherJobs
  | waitingManual step state current manual waiting =>
      constructor <;> simp [stepsEq, jobsEq, state, current, manual, waiting]
      simpa [jobsEq] using otherJobs
  | ended state =>
      rcases state with state | state
      · constructor <;> simp [stepsEq, jobsEq, state]
        simpa [jobsEq] using otherJobs
      · constructor <;> simp [stepsEq, jobsEq, state]
        simpa [jobsEq] using otherJobs

theorem process_coherent (config : Config) (clock : Nat → Time) (digest : String → String)
    (calls : List Call) :
    ∀ process ∈ (reached config clock digest calls).db.workflow.processes,
      Coherent ((reached config clock digest calls).db.view process.id) process := by
  intro process member
  have sound := (@reached_steady config clock digest calls).calm.sound
  exact coherent_of_settled (sound.settled process.id) (sound.rows.process? member)

def seeded (calls : List Call) : System := reached Seed.config (fun tick => (tick : Int)) id calls

namespace Seed

/-! Calls of `api.invoke` on the seeded catalog, about the operation requested first. -/

def caller (scope : String) : Context where
  principal := some "client"
  requestId := some "request"
  correlationId := some (uuidText 0)
  scopes := [scope]

def request (operationKind amount : String) : Call :=
  .invoke "payment" "request" none (caller "payment:write") (.object [
    ("operationKind", .text operationKind), ("amount", .text amount), ("currency", .text "RUB")])

def onOperation (action scope : String) : Call :=
  .invoke "payment" action none (caller scope) (.object [("operationId", .text (uuidText 0))])

def submit : Call := onOperation "submit" "payment:write"

def internally (action : String) : Call := onOperation action "payment:internal"

def receipt (messageId externalRequestId outcome : String) : Call :=
  .invoke "receipt" "accept" none
    { caller "receipt:write" with
      signatureVerified := some true, signatureVersion := some 1
      bodySha256 := some "0123456789abcdef0123456789abcdef0123456789abcdef0123456789abcdef" }
    (.object [
      ("version", .number (.ofInt 1)), ("messageId", .text messageId),
      ("externalRequestId", .text externalRequestId), ("outcome", .text outcome),
      ("occurredAt", .text "2025-01-01T00:00:00Z")])

def claimed (jobId stepInstanceId attemptId : Nat) (step : FlowStep) (outcomes : List String) :
    ClaimedJob where
  jobId
  processId := 1
  stepInstanceId
  executionId := jobId + 1
  leaseVersion := 1
  attemptId
  attemptNumber := 1
  owner := "worker"
  flowName := "payment-processing"
  flowVersion := 1
  stepKey := step.key
  stepType := .automatic
  processData := processData
    ⟨0, "request", "client", .paymentExecution, 1000, "RUB", .created, none⟩
  task := step.task.getD ⟨"", "", "", 0, [], 0, ⟨none, []⟩, [], []⟩
  outcomes
  requestSchema := .object []
  responseSchema := .object []

def claim : Call := .claimJobs "worker" (some 10) (some 1000) fun _ => false

def prepared : List Call := [
  request "PAYMENT_EXECUTION" "10.00", submit,
  claim,
  .work (claimed 3 2 5 (internal "validate_operation" "validate" ⟨some 1, []⟩) ["VALID"]),
  claim,
  .work (claimed 7 6 9 (internal "prepare_external_request" "prepare_external"
    ⟨some 3, [200, 400]⟩) ["PREPARED"])]

end Seed

def startedProcess : Process :=
  ⟨0, "payment-processing", 1, "order", .running, some "validate_operation", .null⟩

theorem process_coherent_started :
    Coherent ((seeded [.startProcess "payment-processing" "order" .null]).db.view 0)
      startedProcess := by
  have member : startedProcess ∈
      (seeded [.startProcess "payment-processing" "order" .null]).db.workflow.processes := by decide
  exact process_coherent _ _ _ _ _ member

end PaymentWorkflow
