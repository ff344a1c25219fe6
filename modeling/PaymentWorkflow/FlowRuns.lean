import PaymentWorkflow.FlowProofs
import PaymentWorkflow.SystemRuns

/-! Runs of publications, activations and calls: the versions processes are pinned to. -/

namespace PaymentWorkflow

structure Deployment where
  flows : Flows
  system : System

inductive Request
  | publishFlow (map : Json)
  | activateFlow (flow : String) (version : Int)
  | call (call : Call)

namespace Deployment

def configure (deployment : Deployment) (flows : Flows) : Deployment where
  flows
  system := { deployment.system with
    db := { deployment.system.db with config := flows.config deployment.system.db.config } }

def step (deployment : Deployment) : Request → Deployment
  | .publishFlow map => deployment.configure (deployment.flows.publishFlow map).1
  | .activateFlow flow version => deployment.configure (deployment.flows.activateFlow flow version).1
  | .call call => { deployment with system := PaymentWorkflow.step deployment.system call }

def fresh (base : Config) (clock : Nat → Time) (digest : String → String) : Deployment :=
  ⟨{}, PaymentWorkflow.fresh (Flows.config {} base) clock digest⟩

def reached (base : Config) (clock : Nat → Time) (digest : String → String)
    (requests : List Request) : Deployment :=
  Runs.run step (fresh base clock digest) requests

end Deployment

/-! Calls create processes on active versions only. -/

def Db.StartsActive (db later : Db) : Prop :=
  ∀ row ∈ later.fixed.processes, row ∈ db.fixed.processes ∨
    ∃ version, db.activeVersion? row.flowName = some version ∧ row.flowVersion = version.version

theorem Db.startsActive_of_eq {db later : Db} (same : later.fixed.processes = db.fixed.processes) :
    db.StartsActive later := by
  intro row member
  rw [same] at member
  exact .inl member

theorem Db.processes_placeStep {db : Db} (rows : db.Rows) (processId : Nat)
    (definition : StepDefinition) :
    (db.placeStep processId definition).fixed.processes = db.fixed.processes := by
  rw [Db.fixed_placeStep rows.stepBound]

theorem EngineMove.startsActive {processId : Nat} {db later : Db}
    (move : EngineMove processId db later) (rows : db.Rows) : db.StartsActive later := by
  cases move with
  | ticked => exact Db.startsActive_of_eq rfl
  | swept => exact Db.startsActive_of_eq rfl
  | applied => exact Db.startsActive_of_eq rfl
  | @started _ flowName businessKey data version definition absent active defined =>
      intro row member
      rw [Db.processes_placeStep (Db.startRows rows _ _ _ _), Db.fixed_insertEvent,
        Db.fixed_insertProcess] at member
      rcases List.mem_append.mp member with old | new
      · exact .inl old
      · rw [List.mem_singleton.mp new]
        exact .inr ⟨version, active, rfl⟩
  | stored =>
      refine Db.startsActive_of_eq ?_
      rw [Db.fixed_insertEvent, Db.fixed_insertSignal]
  | signalled =>
      refine Db.startsActive_of_eq ?_
      rw [Db.processes_placeStep (Db.consumeSignal_rows rows _ _ _ _), Db.fixed_consumeSignal]
  | leased => exact Db.startsActive_of_eq (by rw [Db.fixed_leaseJob])
  | disabled => exact Db.startsActive_of_eq (congrArg Fixed.processes Db.fixed_buryJob)
  | finished =>
      refine Db.startsActive_of_eq ?_
      rw [Db.processes_placeStep (Db.completeJob_rows rows _ _ _), Db.fixed_completeJob]
  | retried => exact Db.startsActive_of_eq (congrArg Fixed.processes Db.fixed_scheduleRetry)
  | died => exact Db.startsActive_of_eq (congrArg Fixed.processes Db.fixed_buryJob)
  | decided =>
      refine Db.startsActive_of_eq ?_
      rw [Db.processes_placeStep (Db.decide_rows rows _ _ _ _ _ _), Db.fixed_completeManual]
      rfl

theorem activeVersion?_congr {db later : Db} (config : later.config = db.config)
    (flowName : String) : later.activeVersion? flowName = db.activeVersion? flowName := by
  rw [Db.activeVersion?, Db.activeVersion?, config]

theorem SystemMoves.startsActive {db later : Db} (moves : SystemMoves db later)
    (steady : db.Steady) : db.StartsActive later := by
  have invariant : later.config = db.config ∧ db.StartsActive later := by
    refine SystemMoves.invariant (fun state => state.config = db.config ∧ db.StartsActive state)
      ?_ ?_ ?_ moves steady ⟨rfl, fun row member => .inl member⟩
    · intro processId before after sound _ holds move
      refine ⟨move.config_eq.trans holds.1, fun row member => ?_⟩
      rcases move.startsActive sound.rows row member with old | ⟨version, active, number⟩
      · exact holds.2 row old
      · rw [activeVersion?_congr holds.1] at active
        exact .inr ⟨version, active, number⟩
    · intro before after _ _ holds move
      refine ⟨move.config_eq.trans holds.1, ?_⟩
      rw [Db.StartsActive, Db.fixed, move.workflow_eq]
      exact holds.2
    · intro target operation before after _ _ holds move
      refine ⟨move.config_eq.trans holds.1, ?_⟩
      rw [Db.StartsActive, Db.fixed, move.workflow_eq]
      exact holds.2
  exact invariant.2

/-! Another configuration that defines the steps of every process as they were. -/

theorem Db.Steady.configure {db : Db} (steady : db.Steady) {config : Config}
    (same : ∀ process ∈ db.workflow.processes, ∀ key,
      config.stepDefinition? process.flowName process.flowVersion key =
        db.config.stepDefinition? process.flowName process.flowVersion key) :
    Db.Steady { db with config } where
  calm := {
    sound := {
      rows := { (show PaymentWorkflow.Rows db.config db.nextId db.fixed from
          steady.calm.sound.rows) with
        stepDefined := by
          intro step member
          obtain ⟨fixed, fixedMember, owns, definition, defined, type⟩ :=
            PaymentWorkflow.Rows.stepDefined steady.calm.sound.rows step member
          obtain ⟨process, processMember, rfl⟩ := List.mem_map.mp fixedMember
          refine ⟨_, fixedMember, owns, definition, ?_, type⟩
          exact (same process processMember step.stepKey).trans defined }
      settled := steady.calm.sound.settled }
    quiet := by
      intro processId process found step member waits definition defined
      have owner : process ∈ db.workflow.processes := (Table.lookup_mem found).1
      rw [show Config.stepDefinition? _ _ _ _ = _ from same process owner step.stepKey] at defined
      exact steady.calm.quiet processId process found step member waits definition defined }
  ledger := ⟨steady.ledger.operationIds, steady.ledger.operationBound, steady.ledger.outboxIds,
    steady.ledger.outboxBound⟩

/-! The rows of one version, and what the engine finds in them. -/

structure Definitions where
  steps : List StepRow
  tasks : List TaskRow
  transitions : List TransitionDefinition

def Flows.definitions (flows : Flows) (key : String × Int) : Definitions where
  steps := flows.steps.filter fun row => row.owner = key
  tasks := flows.tasks.filter fun row => row.owner = key
  transitions := flows.transitions.filter fun row => row.owner = key

def Json.project (key : String × Int) (map : Json) : Option Definitions := do
  some ⟨← map.projectSteps key, ← map.projectTasks key, ← map.projectTransitions key⟩

namespace Flows

variable {flows later : Flows} {map : Json} {version : VersionRow}

theorem Sound.project (sound : flows.Sound) (member : version ∈ flows.versions) :
    version.map.project version.key = some (flows.definitions version.key) := by
  simp [Json.project, sound.steps.rows version member, sound.tasks.rows version member,
    sound.transitions.rows version member, definitions]

def Within (flows later : Flows) : Prop :=
  ∀ version ∈ flows.versions, later.definitions version.key = flows.definitions version.key ∧
    ∃ after ∈ later.versions, after.key = version.key ∧ after.map = version.map

theorem Within.refl (flows : Flows) : flows.Within flows :=
  fun version member => ⟨rfl, version, member, rfl, rfl⟩

theorem Within.trans {third : Flows} (first : flows.Within later) (second : later.Within third) :
    flows.Within third := by
  intro version member
  obtain ⟨same, after, inside, key, map⟩ := first version member
  obtain ⟨again, last, present, equal, kept⟩ := second after inside
  rw [key] at again equal
  exact ⟨again.trans same, last, present, equal, kept.trans map⟩

theorem Publishes.within (publishes : Publishes flows map later) : flows.Within later := by
  cases publishes with
  | nothing => exact .refl _
  | @published names flow number steps tasks transitions keyed contract absent stepped tasked
      linked =>
      intro version member
      have other := (version?_eq_none.mp absent version member).symm
      refine ⟨?_, version, List.mem_append_left _ member, rfl, rfl⟩
      simp only [definitions, withVersion]
      rw [Owned.filter_other (Json.mapM_forall (fun _ _ => Json.stepRow?_owner) stepped) other,
        Owned.filter_other (Json.mapM_forall (fun _ _ => Json.taskRow?_owner) tasked) other,
        Owned.filter_other (Json.mapM_forall (fun _ _ => Json.transitionRow?_owner) linked) other]

theorem Activates.within (activates : Activates flows later) : flows.Within later := by
  cases activates with
  | nothing => exact .refl _
  | @flagged change same active =>
      intro version member
      exact ⟨rfl, change version, List.mem_map_of_mem member, same version⟩

/-! The lookups of the engine stay within the rows of one version. -/

theorem find?_owner {Row : Type} {owner : Row → String × Int} {key : String × Int}
    {wanted : Row → Bool} {table other : List Row}
    (own : ∀ row, wanted row = true → owner row = key)
    (same : table.filter (fun row => owner row = key) = other.filter fun row => owner row = key) :
    table.find? wanted = other.find? wanted := by
  have narrowed : ∀ rows : List Row,
      rows.find? wanted = (rows.filter fun row => owner row = key).find? wanted := by
    intro rows
    rw [List.find?_filter]
    congr 1
    funext row
    cases hit : wanted row with
    | false => simp
    | true => simp [own row hit]
  rw [narrowed table, same, ← narrowed other]

theorem definitions_agree {key : String × Int}
    (same : later.definitions key = flows.definitions key) (base other : Config) :
    (∀ stepKey, (later.config other).stepDefinition? key.1 key.2 stepKey =
        (flows.config base).stepDefinition? key.1 key.2 stepKey) ∧
      (∀ stepKey, (later.config other).task? key.1 key.2 stepKey =
        (flows.config base).task? key.1 key.2 stepKey) ∧
      ∀ source outcome, (later.config other).transition? key.1 key.2 source outcome =
        (flows.config base).transition? key.1 key.2 source outcome := by
  simp only [definitions, Definitions.mk.injEq] at same
  refine ⟨fun stepKey => ?_, fun stepKey => ?_, fun source outcome => ?_⟩
  · simp only [Config.stepDefinition?, config, List.find?_map]
    rw [find?_owner ?_ same.1]
    intro row wanted
    have matched := of_decide_eq_true wanted
    exact Prod.ext matched.1 matched.2.1
  · simp only [Config.task?, config, List.find?_map]
    rw [find?_owner ?_ same.2.1]
    intro row wanted
    have matched := of_decide_eq_true wanted
    exact Prod.ext matched.1 matched.2.1
  · simp only [Config.transition?, config]
    refine find?_owner ?_ same.2.2
    intro row wanted
    have matched := of_decide_eq_true wanted
    exact Prod.ext matched.1 matched.2.1

end Flows

namespace Deployment

variable {deployment later : Deployment}

def pin (process : Process) : String × Int := (process.flowName, process.flowVersion)

structure Sound (deployment : Deployment) : Prop where
  flows : deployment.flows.Sound
  config : deployment.system.db.config = deployment.flows.config deployment.system.db.config
  steady : deployment.system.db.Steady
  pinned : ∀ process ∈ deployment.system.db.workflow.processes,
    ∃ version ∈ deployment.flows.versions, version.key = pin process

theorem activeVersion?_published (sound : deployment.Sound) {flowName : String}
    {version : FlowVersion} (active : deployment.system.db.activeVersion? flowName = some version) :
    ∃ row ∈ deployment.flows.versions, row.isActive = true ∧ row.flowName = flowName ∧
      row.version = version.version := by
  have member := Table.first_mem active
  rw [sound.config] at member
  simp only [Flows.config, List.mem_filter, List.mem_map, decide_eq_true_eq] at member
  obtain ⟨⟨row, inside, rfl⟩, named, flagged⟩ := member
  exact ⟨row, inside, flagged, named, rfl⟩

/-- A call leaves the published tables alone; the processes it creates are on active versions. -/
theorem call_starts (sound : deployment.Sound) (call : Call) {process : Process}
    (member : process ∈ (deployment.step (.call call)).system.db.workflow.processes) :
    (∃ old ∈ deployment.system.db.workflow.processes, old.fixed = process.fixed) ∨
      ∃ version ∈ deployment.flows.versions, version.isActive = true ∧
        version.key = pin process := by
  have moves := step_moves sound.steady call
  rcases moves.startsActive sound.steady process.fixed (List.mem_map_of_mem member) with
    old | ⟨version, active, number⟩
  · exact .inl (List.mem_map.mp old)
  · obtain ⟨row, inside, flagged, named, same⟩ := activeVersion?_published sound active
    exact .inr ⟨row, inside, flagged, Prod.ext named (same.trans number.symm)⟩

theorem configure_sound (sound : deployment.Sound) {flows : Flows} (next : flows.Sound)
    (within : deployment.flows.Within flows) : (deployment.configure flows).Sound where
  flows := next
  config := rfl
  steady := by
    refine sound.steady.configure fun process member key => ?_
    obtain ⟨version, inside, pinned⟩ := sound.pinned process member
    have same := (within version inside).1
    rw [pinned] at same
    rw [sound.config]
    exact (Flows.definitions_agree same _ _).1 key
  pinned := by
    intro process member
    obtain ⟨version, inside, pinned⟩ := sound.pinned process member
    obtain ⟨_, after, present, key, _⟩ := within version inside
    exact ⟨after, present, key.trans pinned⟩

structure Keeps (deployment later : Deployment) : Prop where
  flows : deployment.flows.Within later.flows
  processes : ∀ process ∈ deployment.system.db.workflow.processes,
    ∃ after ∈ later.system.db.workflow.processes, after.fixed = process.fixed

theorem Keeps.trans {third : Deployment} (first : deployment.Keeps later)
    (second : later.Keeps third) : deployment.Keeps third where
  flows := first.flows.trans second.flows
  processes := by
    intro process member
    obtain ⟨between, inside, same⟩ := first.processes process member
    obtain ⟨after, present, equal⟩ := second.processes between inside
    exact ⟨after, present, equal.trans same⟩

theorem step_sound (sound : deployment.Sound) (request : Request) :
    (deployment.step request).Sound ∧ deployment.Keeps (deployment.step request) := by
  cases request with
  | publishFlow map =>
      have publishes := (@Flows.publishFlow_publishes deployment.flows map).1
      exact ⟨configure_sound sound (sound.flows.publish publishes) publishes.within,
        publishes.within, fun process member => ⟨process, member, rfl⟩⟩
  | activateFlow flow version =>
      have activates := @Flows.activateFlow_activates deployment.flows flow version
      exact ⟨configure_sound sound (sound.flows.activate activates) activates.within,
        activates.within, fun process member => ⟨process, member, rfl⟩⟩
  | call call =>
      have moves := step_moves sound.steady call
      refine ⟨⟨sound.flows, ?_, moves.steady sound.steady, ?_⟩, .refl _, ?_⟩
      · show (PaymentWorkflow.step deployment.system call).db.config =
          deployment.flows.config (PaymentWorkflow.step deployment.system call).db.config
        rw [moves.config_eq]
        exact sound.config
      · intro process member
        rcases call_starts sound call member with ⟨old, inside, same⟩ | ⟨version, inside, _, pinned⟩
        · obtain ⟨version, published, pinned⟩ := sound.pinned old inside
          simp only [Process.fixed, Process.mk.injEq] at same
          exact ⟨version, published, pinned.trans (Prod.ext same.2.1 same.2.2.1)⟩
        · exact ⟨version, inside, pinned⟩
      · exact fun process member => (moves.kept sound.steady).process member

theorem run_sound : ∀ (requests : List Request) {deployment : Deployment}, deployment.Sound →
    (Runs.run step deployment requests).Sound ∧
      deployment.Keeps (Runs.run step deployment requests) := by
  intro requests
  induction requests with
  | nil => exact fun {deployment} sound => ⟨sound, .refl _, fun process member => ⟨process, member, rfl⟩⟩
  | cons request rest ih =>
      intro deployment sound
      obtain ⟨next, first⟩ := step_sound sound request
      obtain ⟨last, others⟩ := ih next
      exact ⟨last, first.trans others⟩

variable {base : Config} {clock : Nat → Time} {digest : String → String}

theorem fresh_sound : (fresh base clock digest).Sound where
  flows := .blank
  config := rfl
  steady := initial_steady
  pinned := nofun

theorem reached_sound (requests : List Request) : (reached base clock digest requests).Sound :=
  (run_sound requests fresh_sound).1

end Deployment

namespace Seed

end Seed

end PaymentWorkflow
