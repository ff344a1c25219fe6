import PaymentWorkflow.GraphProofs
import PaymentWorkflow.StartProofs

/-!
A map the two validators accept meets the constraints of the definition tables: it can be
published, activated and started.
-/

namespace PaymentWorkflow

namespace WrittenInt

theorem integer_eq (number : WrittenInt) : number.integer =
    if number.literal.numeric.scale = 0 ∧ isInt number.value = true then .ok number.value
    else .error .castFailure := by
  rw [integer, number.integer?_eq]
  by_cases read : number.literal.numeric.scale = 0 ∧ isInt number.value = true
  · simp only [if_pos read]
  · simp only [if_neg read]

/-- The cast reads whatever `GetValue<int>` reads. -/
theorem integer_of_getInt {number : WrittenInt} {read : Int} (ok : MapNumber.getInt number = .ok read) :
    number.integer = .ok number.value := by
  rw [getInt_written] at ok
  split at ok
  · rename_i readable
    rw [Bool.and_eq_true] at readable
    have whole : number.literal.numeric.scale = 0 := by
      rw [NumberLiteral.numeric_plain readable.1]
      rfl
    rw [integer_eq, if_pos ⟨whole, readable.2⟩]
  · cases ok

end WrittenInt

/-- The casts of `publish_flow` go through: the version is an int, and neither it nor a timeout
is written with a point. -/
structure FlowMap.Castable (map : FlowMap WrittenInt) : Prop where
  version : map.version.literal.numeric.scale = 0 ∧ map.version.value < 2 ^ 31
  timeouts : ∀ step ∈ map.steps, ∀ task ∈ step.task, task.timeoutMs.literal.numeric.scale = 0

def FlowStep.Casts (step : FlowStep WrittenInt) : Prop :=
  ∀ task ∈ step.task, task.actionVersion.integer = .ok task.actionVersion.value ∧
    task.timeoutMs.integer = .ok task.timeoutMs.value

section Insert

variable {map : FlowMap} {config later : Config}

structure Config.Lacks (config : Config) (map : FlowMap) (key : String) : Prop where
  step : config.stepDefinition? map.flowName map.version key = none
  task : config.task? map.flowName map.version key = none

theorem insertStepDefinition_inserts {step : FlowStep WrittenInt} {stepType : StepType}
    (kind : (step.map WrittenInt.value).Kind stepType) (casts : step.Casts)
    (lacks : config.Lacks map step.key) :
    ∃ later, insertStepDefinition map.flowName map.version config step = .ok later := by
  have known : StepType.ofText? (upper step.type) = some stepType := kind.ofText?
  cases kind with
  | automatic read type has schema =>
      obtain ⟨task, written, rfl⟩ := Option.map_eq_some_iff.mp has
      simp only [FlowTask.matchesSchema, Bool.and_eq_true, decide_eq_true_eq] at schema
      obtain ⟨⟨⟨⟨⟨⟨⟨⟨⟨⟨⟨service, _⟩, _⟩, _⟩, _⟩, _⟩, least⟩, most⟩, _⟩, _⟩, _⟩, _⟩ := schema
      have least : 1 ≤ task.timeoutMs.value := least
      have most : task.timeoutMs.value ≤ 30000 := most
      have inRange : ¬ (task.service ≠ "postgres" ∨ task.timeoutMs.value < 1 ∨
          30000 < task.timeoutMs.value) := by
        rw [not_or, not_or]
        exact ⟨not_not.mpr service, by omega, by omega⟩
      obtain ⟨version, timeout⟩ := casts task written
      simp only [insertStepDefinition, known, lacks.step, written, version, timeout, bind,
        Except.bind, if_neg inRange, lacks.task, Option.isSome_none, Bool.false_eq_true, if_false,
        ne_eq, not_true_eq_false]
      exact ⟨_, rfl⟩
  | waitSignal | manual | endStep =>
      rw [insertStepDefinition, known]
      simp only [lacks.step]
      exact ⟨_, rfl⟩

theorem Config.Lacks.insert {key : String} {step : FlowStep WrittenInt}
    (lacks : config.Lacks map key) (other : step.key ≠ key)
    (returned : insertStepDefinition map.flowName map.version config step = .ok later) :
    later.Lacks map key := by
  obtain rfl := insertStepDefinition_rows returned
  constructor
  · refine List.find?_eq_none.mpr fun row member hit => ?_
    rcases List.mem_append.mp member with old | new
    · exact List.find?_eq_none.mp lacks.step row old hit
    · obtain ⟨_, _, rfl⟩ := Option.map_eq_some_iff.mp (Option.mem_toList.mp new)
      simp only [decide_eq_true_eq] at hit
      exact other hit.2.2
  · refine List.find?_eq_none.mpr fun row member hit => ?_
    rcases List.mem_append.mp member with old | new
    · exact List.find?_eq_none.mp lacks.task row old hit
    · have defined := Option.mem_toList.mp new
      simp only [FlowMap.defineTask] at defined
      split at defined
      · obtain ⟨_, _, rfl⟩ := Option.map_eq_some_iff.mp defined
        simp only [decide_eq_true_eq] at hit
        exact other hit.2.2
      · cases defined

theorem insertStepDefinitions_inserts {steps : List (FlowStep WrittenInt)} :
    ∀ {config : Config},
    (∀ step ∈ steps, ∃ stepType, (step.map WrittenInt.value).Kind stepType) →
      (∀ step ∈ steps, step.Casts) → (steps.map FlowStep.key).Nodup →
        (∀ step ∈ steps, config.Lacks map step.key) →
          ∃ later, steps.foldlM (insertStepDefinition map.flowName map.version) config =
            .ok later := by
  induction steps with
  | nil => exact fun {config} _ _ _ _ => ⟨config, rfl⟩
  | cons step rest ih =>
      intro config kinds casts keys lacks
      obtain ⟨stepType, kind⟩ := kinds step List.mem_cons_self
      obtain ⟨between, first⟩ := insertStepDefinition_inserts kind (casts step List.mem_cons_self)
        (lacks step List.mem_cons_self)
      obtain ⟨new, distinct⟩ := List.nodup_cons.mp keys
      obtain ⟨after, finished⟩ := @ih between
        (fun other member => kinds other (List.mem_cons_of_mem _ member))
        (fun other member => casts other (List.mem_cons_of_mem _ member)) distinct
        (fun other member => (lacks other (List.mem_cons_of_mem _ member)).insert
          (fun same => new (List.mem_map.mpr ⟨other, member, same.symm⟩)) first)
      refine ⟨after, ?_⟩
      rw [List.foldlM_cons, Runs.bind_eq_ok]
      exact ⟨between, first, finished⟩

structure Config.Takes (config : Config) (map : FlowMap) (transition : FlowTransition) : Prop where
  branch : config.transition? map.flowName map.version (some transition.fromStep)
    (some transition.outcome) = none
  source : (config.stepDefinition? map.flowName map.version transition.fromStep).isSome = true

theorem Config.Takes.inserts {transition : FlowTransition} (takes : config.Takes map transition) :
    insertTransitionDefinition map.flowName map.version config transition = .ok { config with
      transitionDefinitions :=
        config.transitionDefinitions ++ [map.defineTransition transition] } := by
  have defined : (config.stepDefinition? map.flowName map.version
      transition.fromStep).isNone = false := by
    rw [Option.isNone_eq_false_iff]
    exact takes.source
  simp only [insertTransitionDefinition, takes.branch, defined]
  rfl

theorem Config.Takes.insert {transition other : FlowTransition} (takes : config.Takes map other)
    (apart : transition.branch ≠ other.branch) : Config.Takes { config with
      transitionDefinitions :=
        config.transitionDefinitions ++ [map.defineTransition transition] } map other where
  branch := by
    refine List.find?_eq_none.mpr fun row member hit => ?_
    rcases List.mem_append.mp member with old | new
    · exact List.find?_eq_none.mp takes.branch row old hit
    · obtain rfl := List.mem_singleton.mp new
      simp only [FlowMap.defineTransition, Option.some.injEq, decide_eq_true_eq] at hit
      exact apart (Prod.ext hit.2.2.1 hit.2.2.2)
  source := takes.source

theorem insertTransitionDefinitions_inserts {transitions : List FlowTransition} :
    ∀ {config : Config}, (transitions.map FlowTransition.branch).Nodup →
      (∀ transition ∈ transitions, config.Takes map transition) →
        ∃ later, transitions.foldlM (insertTransitionDefinition map.flowName map.version) config =
          .ok later := by
  induction transitions with
  | nil => exact fun {config} _ _ => ⟨config, rfl⟩
  | cons transition rest ih =>
      intro config branches takes
      have first := (takes transition List.mem_cons_self).inserts
      obtain ⟨new, distinct⟩ := List.nodup_cons.mp branches
      obtain ⟨after, finished⟩ := ih distinct fun other member =>
        (takes other (List.mem_cons_of_mem _ member)).insert fun same =>
          new (List.mem_map.mpr ⟨other, member, same.symm⟩)
      refine ⟨after, ?_⟩
      rw [List.foldlM_cons, Runs.bind_eq_ok]
      exact ⟨_, first, finished⟩

end Insert

section Deploy

variable {config : Config} {map : FlowMap}

theorem FlowMap.Accepted.branches {catalog : List ActionRow} (accepted : map.Accepted catalog) :
    (map.transitions.map FlowTransition.branch).Nodup := by
  have semantics := accepted.semantics
  simp only [validateSemantics, Runs.bind_eq_ok, require_ok, checkAll_ok] at semantics
  obtain ⟨_, _, _, _, _, transitions, _⟩ := semantics
  exact (FlowMap.seenAs_nodup (FlowMap.transitions_schema accepted.schema)).mp
    (FlowMap.checkTransitions_ok.mp ⟨_, transitions⟩).2

/-- Before a version is published none of the tables has a row of it. -/
theorem Projects.unowned (fresh : config.flowVersion? map.flowName map.version = none) {Row : Type}
    {owner : Row → String × Int} {project : FlowMap → List Row} {table : List Row}
    (projects : Projects owner project config.flowVersions table) :
    ∀ row ∈ table, owner row ≠ map.key := by
  intro row member same
  obtain ⟨version, inside, owns⟩ := projects.owned row member
  have missed := List.find?_eq_none.mp fresh version inside
  rw [same] at owns
  simp only [FlowVersion.key, FlowMap.key, Prod.mk.injEq] at owns
  simp [owns] at missed

theorem Config.Faithful.inserts (faithful : config.Faithful) {written : FlowMap WrittenInt}
    (accepted : (written.map WrittenInt.value).Accepted config.actionCatalog)
    (casts : ∀ step ∈ written.steps, step.Casts)
    (fresh : config.flowVersion? written.flowName written.version.value = none) :
    insertDefinitions config written written.version.value =
      .ok (config.withMap (written.map WrittenInt.value)) := by
  have free : config.flowVersion? (written.map WrittenInt.value).flowName
      (written.map WrittenInt.value).version = none := fresh
  have kinds : ∀ step ∈ written.steps, ∃ stepType, (step.map WrittenInt.value).Kind stepType :=
    fun step member => accepted.kind (List.mem_map_of_mem member)
  have lacks : ∀ step ∈ written.steps, Config.Lacks { config with flowVersions :=
      config.flowVersions ++ [⟨written.flowName, written.version.value, false,
        written.map WrittenInt.value⟩] } (written.map WrittenInt.value) step.key := by
    intro step _
    constructor
    · refine List.find?_eq_none.mpr fun row member hit => ?_
      simp only [decide_eq_true_eq] at hit
      exact Projects.unowned free faithful.steps row member (Prod.ext hit.1 hit.2.1)
    · refine List.find?_eq_none.mpr fun row member hit => ?_
      simp only [decide_eq_true_eq] at hit
      exact Projects.unowned free faithful.tasks row member (Prod.ext hit.1 hit.2.1)
  have keys : (written.steps.map FlowStep.key).Nodup := by
    rw [← FlowMap.stepKeys, ← FlowMap.stepKeys_map]
    exact accepted.keys
  obtain ⟨stepped, first⟩ := insertStepDefinitions_inserts kinds casts keys lacks
  have rows := insertStepDefinitions_rows _ _ _ first
  have takes : ∀ transition ∈ written.transitions,
      stepped.Takes (written.map WrittenInt.value) transition := by
    intro transition member
    rw [rows]
    constructor
    · refine List.find?_eq_none.mpr fun row inside hit => ?_
      simp only [decide_eq_true_eq] at hit
      exact Projects.unowned free faithful.transitions row inside (Prod.ext hit.1 hit.2.1)
    · obtain ⟨step, source, keyed⟩ := List.mem_map.mp (accepted.parts.2.2.1 transition member).1
      obtain ⟨stepType, kind⟩ := accepted.kind source
      rw [Config.stepDefinition?, List.find?_isSome]
      refine ⟨⟨written.flowName, written.version.value, step.key, stepType, step.params⟩, ?_,
        by simp [keyed]; exact ⟨rfl, rfl⟩⟩
      refine List.mem_append_right _ (List.mem_filterMap.mpr ⟨step, source, ?_⟩)
      rw [FlowMap.define, kind.ofText?]
      rfl
  obtain ⟨later, second⟩ := insertTransitionDefinitions_inserts accepted.branches takes
  rw [insertDefinitions, Runs.bind_eq_ok]
  refine ⟨stepped, first, ?_⟩
  have finished := insertTransitionDefinitions_rows _ _ _ second
  rw [rows] at finished
  exact second.trans (congrArg Except.ok finished)

/-- The types of the steps of an accepted map, and where its tasks are. -/
theorem FlowMap.Accepted.automatic {written : FlowMap WrittenInt}
    (accepted : written.Accepted config.actionCatalog) :
    ∀ step ∈ written.steps, ∃ stepType, (step.map WrittenInt.value).Kind stepType ∧
      (step.task ≠ none → stepType = .automatic) := by
  intro step member
  have values := accepted.respelled .byValue
  obtain ⟨stepType, kind⟩ := values.kind (List.mem_map_of_mem member)
  refine ⟨stepType, kind, fun present => ?_⟩
  have known : StepType.ofText? (upper step.type) = some stepType := kind.ofText?
  obtain ⟨task, has⟩ := Option.ne_none_iff_exists'.mp present
  have schema := FlowMap.steps_schema accepted.schema step member
  simp only [FlowStep.matchesSchema, Bool.and_eq_true] at schema
  obtain ⟨_, shape⟩ := schema
  split at shape
  · rename_i type _ _ _ _
    rw [type] at known
    exact (Option.some.inj known).symm
  · rename_i lacks _ _ _
    rw [has] at lacks
    cases lacks
  · rename_i lacks _ _ _
    rw [has] at lacks
    cases lacks
  · rename_i lacks _ _ _
    rw [has] at lacks
    cases lacks
  · cases shape

/-- `GetValue<int>` has read the action versions, and the schema bounds the timeouts. -/
theorem FlowMap.Castable.casts {written : FlowMap WrittenInt} (castable : written.Castable)
    (accepted : written.Accepted config.actionCatalog) :
    ∀ step ∈ written.steps, step.Casts := by
  intro step member task present
  have has : step.task = some task := present
  have schema := FlowMap.steps_schema accepted.schema step member
  have checked := accepted.checks member
  simp only [FlowStep.matchesSchema, Bool.and_eq_true] at schema
  obtain ⟨_, shape⟩ := schema
  split at shape
  · rename_i other type same _ _ _
    obtain rfl := Option.some.inj (has.symm.trans same)
    simp only [checkStep, type, has, checkTask, Runs.bind_eq_ok] at checked
    obtain ⟨_, _, version, read, _⟩ := checked
    simp only [FlowTask.matchesSchema, Bool.and_eq_true, decide_eq_true_eq] at shape
    obtain ⟨⟨⟨⟨⟨⟨_, least⟩, most⟩, _⟩, _⟩, _⟩, _⟩ := shape
    have least : 1 ≤ task.timeoutMs.value := least
    have most : task.timeoutMs.value ≤ 30000 := most
    refine ⟨WrittenInt.integer_of_getInt read, ?_⟩
    rw [WrittenInt.integer_eq, if_pos]
    refine ⟨castable.timeouts step member task has, ?_⟩
    simp only [isInt, Bool.and_eq_true, decide_eq_true_eq]
    omega
  · rename_i lacks _ _ _
    rw [has] at lacks
    cases lacks
  · rename_i lacks _ _ _
    rw [has] at lacks
    cases lacks
  · rename_i lacks _ _ _
    rw [has] at lacks
    cases lacks
  · cases shape

section Publish

variable {written : FlowMap WrittenInt}

theorem FlowMap.Accepted.contract (accepted : written.Accepted config.actionCatalog) :
    written.contractVersion = "course-1" ∧ 1 ≤ written.version.value := by
  have schema := accepted.schema
  simp only [FlowMap.matchesSchema, Bool.and_eq_true, decide_eq_true_eq] at schema
  exact ⟨schema.1.1.1.1.1.1.1.1, schema.1.1.1.1.1.1.2⟩

end Publish

def Config.activated (config : Config) (map : FlowMap) : Config :=
  { config with flowVersions := config.flowVersions.map fun row =>
      if row.flowName = map.flowName then { row with isActive := row.version = map.version }
      else row }

end Deploy

end PaymentWorkflow
