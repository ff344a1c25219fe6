import PaymentWorkflow.ValidatorProofs
import PaymentWorkflow.SeedCore

/-!
The definition tables of a published version are the projection of its map, whatever is
published, activated or catalogued later.
-/

namespace PaymentWorkflow

/-! The rows a map stands for. -/

namespace FlowMap

def define (map : FlowMap) (step : FlowStep) : Option StepDefinition :=
  (StepType.ofText? (upper step.type)).map fun stepType =>
    ⟨map.flowName, map.version, step.key, stepType, step.params⟩

def defineTask (map : FlowMap) (step : FlowStep) : Option TaskDefinition :=
  if StepType.ofText? (upper step.type) = some .automatic then
    step.task.map fun task => ⟨map.flowName, map.version, step.key, task⟩
  else none

def defineTransition (map : FlowMap) (transition : FlowTransition) : TransitionDefinition :=
  ⟨map.flowName, map.version, transition.fromStep, transition.outcome, transition.toStep⟩

end FlowMap

theorem WrittenInt.integer_ok {number : WrittenInt} {read : Int}
    (cast : number.integer = .ok read) : read = number.value := by
  rw [WrittenInt.integer, number.integer?_eq] at cast
  split at cast
  · rename_i found
    split at found
    · rw [← Option.some.inj found] at cast
      exact (Except.ok.inj cast).symm
    · cases found
  · cases cast

theorem insertStepDefinition_rows {map : FlowMap} {config later : Config}
    {step : FlowStep WrittenInt}
    (returned : insertStepDefinition map.flowName map.version config step = .ok later) :
    later = { config with
      stepDefinitions := config.stepDefinitions ++ (map.define (step.map WrittenInt.value)).toList
      taskDefinitions :=
        config.taskDefinitions ++ (map.defineTask (step.map WrittenInt.value)).toList } := by
  simp only [insertStepDefinition] at returned
  split at returned
  · simp at returned
  rename_i stepType known
  have known : StepType.ofText? (upper (step.map WrittenInt.value).type) = some stepType := known
  split at returned
  · simp at returned
  split at returned
  · rename_i other
    cases returned
    simp [FlowMap.define, FlowMap.defineTask, known, other]
    rfl
  rename_i automatic
  simp only [ne_eq, not_not] at automatic
  split at returned
  · simp at returned
  rename_i task has
  obtain ⟨actionVersion, version, read⟩ := Runs.bind_eq_ok.mp returned
  obtain ⟨timeoutMs, timeout, inserted⟩ := Runs.bind_eq_ok.mp read
  obtain rfl := WrittenInt.integer_ok version
  obtain rfl := WrittenInt.integer_ok timeout
  split at inserted
  · simp at inserted
  split at inserted
  · simp at inserted
  cases inserted
  have own : (step.map WrittenInt.value).task = some (task.map WrittenInt.value) := by
    rw [FlowStep.map, has, Option.map_some]
  simp [FlowMap.define, FlowMap.defineTask, known, automatic, own]
  exact ⟨rfl, rfl⟩

theorem filterMap_cons_toList {Item Row : Type} (project : Item → Option Row) (item : Item)
    (rest : List Item) :
    (item :: rest).filterMap project = (project item).toList ++ rest.filterMap project := by
  cases projected : project item <;> simp [projected]

theorem insertStepDefinitions_rows {map : FlowMap} : ∀ (steps : List (FlowStep WrittenInt))
    (config later : Config),
    steps.foldlM (insertStepDefinition map.flowName map.version) config = .ok later →
    later = { config with
      stepDefinitions := config.stepDefinitions ++
        (steps.map fun step => step.map WrittenInt.value).filterMap map.define
      taskDefinitions := config.taskDefinitions ++
        (steps.map fun step => step.map WrittenInt.value).filterMap map.defineTask } := by
  intro steps
  induction steps with
  | nil =>
      intro config later finished
      simp only [List.foldlM_nil] at finished
      cases finished
      simp
  | cons step rest ih =>
      intro config later finished
      simp only [List.foldlM_cons] at finished
      obtain ⟨between, first, continued⟩ := Runs.bind_eq_ok.mp finished
      rw [ih between later continued, insertStepDefinition_rows first, List.map_cons,
        filterMap_cons_toList, filterMap_cons_toList]
      simp only [List.append_assoc]

theorem insertTransitionDefinitions_rows {map : FlowMap} : ∀ (transitions : List FlowTransition)
    (config later : Config),
    transitions.foldlM (insertTransitionDefinition map.flowName map.version) config = .ok later →
    later = { config with transitionDefinitions :=
      config.transitionDefinitions ++ transitions.map map.defineTransition } := by
  intro transitions
  induction transitions with
  | nil =>
      intro config later finished
      simp only [List.foldlM_nil] at finished
      cases finished
      simp
  | cons transition rest ih =>
      intro config later finished
      simp only [List.foldlM_cons] at finished
      obtain ⟨between, first, continued⟩ := Runs.bind_eq_ok.mp finished
      rw [ih between later continued]
      simp only [insertTransitionDefinition] at first
      split at first
      · simp at first
      split at first
      · simp at first
      cases first
      simp [FlowMap.defineTransition]

def Config.withMap (config : Config) (map : FlowMap) : Config :=
  { config with
    flowVersions := config.flowVersions ++ [⟨map.flowName, map.version, false, map⟩]
    stepDefinitions := config.stepDefinitions ++ map.steps.filterMap map.define
    taskDefinitions := config.taskDefinitions ++ map.steps.filterMap map.defineTask
    transitionDefinitions :=
      config.transitionDefinitions ++ map.transitions.map map.defineTransition }

theorem publishFlow_cases {config later : Config} {map : FlowMap WrittenInt}
    {reply : PublishReply} (returned : publishFlow config map = .ok (later, reply)) :
    later = config ∨ (later = config.withMap (map.map WrittenInt.value) ∧
      config.flowVersion? map.flowName map.version.value = none) := by
  simp only [publishFlow] at returned
  split at returned
  · simp at returned
  rename_i version cast
  obtain rfl := WrittenInt.integer_ok cast
  split at returned
  · simp at returned
  split at returned
  · split at returned
    · cases returned
      exact .inl rfl
    · simp at returned
  rename_i absent
  split at returned
  · rename_i published inserted
    cases returned
    obtain ⟨stepped, first, second⟩ := Runs.bind_eq_ok.mp inserted
    refine .inr ⟨?_, absent⟩
    rw [@insertTransitionDefinitions_rows (map.map WrittenInt.value) _ _ _ second,
      @insertStepDefinitions_rows (map.map WrittenInt.value) _ _ _ first]
    rfl
  · simp at returned
  · simp at returned

/-! A table of rows that belong to versions. -/

def FlowVersion.key (version : FlowVersion) : String × Int := (version.flowName, version.version)

def FlowMap.key (map : FlowMap) : String × Int := (map.flowName, map.version)

/-- The rows each version owns are the projection of its map, and every row is owned. -/
structure Projects {Row : Type} (owner : Row → String × Int) (project : FlowMap → List Row)
    (versions : List FlowVersion) (table : List Row) : Prop where
  rows : ∀ version ∈ versions, table.filter (fun row => owner row = version.key) =
    project version.map
  owned : ∀ row ∈ table, ∃ version ∈ versions, version.key = owner row

namespace Projects

variable {Row : Type} {owner : Row → String × Int} {project : FlowMap → List Row}
  {versions : List FlowVersion} {table : List Row}

theorem empty : Projects owner project [] [] :=
  ⟨by simp, by simp⟩

theorem publish (projects : Projects owner project versions table) {map : FlowMap}
    (owns : ∀ row ∈ project map, owner row = map.key)
    (absent : ∀ version ∈ versions, version.key ≠ map.key) :
    Projects owner project (versions ++ [⟨map.flowName, map.version, false, map⟩])
      (table ++ project map) where
  rows := by
    intro version member
    rw [List.filter_append]
    rcases List.mem_append.mp member with old | new
    · have other : (project map).filter (fun row => owner row = version.key) = [] := by
        rw [List.filter_eq_nil_iff]
        intro row inside
        simp [owns row inside, Ne.symm (absent version old)]
      rw [projects.rows version old, other, List.append_nil]
    · simp only [List.mem_singleton] at new
      subst new
      have before : table.filter (fun row => owner row = map.key) = [] := by
        rw [List.filter_eq_nil_iff]
        intro row inside
        obtain ⟨version, member, same⟩ := projects.owned row inside
        simp [← same, absent version member]
      have own : (project map).filter (fun row => owner row = map.key) = project map := by
        rw [List.filter_eq_self]
        intro row inside
        simp [owns row inside]
      show table.filter (fun row => owner row = map.key) ++
        (project map).filter (fun row => owner row = map.key) = _
      rw [before, own, List.nil_append]
  owned := by
    intro row member
    rcases List.mem_append.mp member with old | new
    · obtain ⟨version, inside, same⟩ := projects.owned row old
      exact ⟨version, by simp [inside], same⟩
    · exact ⟨⟨map.flowName, map.version, false, map⟩, by simp, (owns row new).symm⟩

theorem activate (projects : Projects owner project versions table)
    {change : FlowVersion → FlowVersion}
    (same : ∀ version, (change version).key = version.key ∧ (change version).map = version.map) :
    Projects owner project (versions.map change) table where
  rows := by
    intro version member
    obtain ⟨old, inside, rfl⟩ := List.mem_map.mp member
    rw [(same old).1, (same old).2]
    exact projects.rows old inside
  owned := by
    intro row member
    obtain ⟨version, inside, keyed⟩ := projects.owned row member
    exact ⟨change version, List.mem_map_of_mem inside, (same version).1.trans keyed⟩

end Projects

/-! Configurations built by accepted publications. -/

def ActionRow.manifest (row : ActionRow) : ActionRow :=
  { row with enabled := true, isDefault := true }

def ActionRow.key (row : ActionRow) : String × String × Int := (row.module, row.action, row.version)

structure CatalogKept (catalog later : List ActionRow) : Prop where
  rows : ∀ row ∈ catalog, ∃ after ∈ later, after.manifest = row.manifest
  unique : (later.map ActionRow.key).Nodup

theorem CatalogKept.trans {first second third : List ActionRow} (left : CatalogKept first second)
    (right : CatalogKept second third) : CatalogKept first third where
  rows := by
    intro row member
    obtain ⟨between, inside, same⟩ := left.rows row member
    obtain ⟨after, present, equal⟩ := right.rows between inside
    exact ⟨after, present, equal.trans same⟩
  unique := right.unique

/-- What the publisher, the activation of flows and the upkeep of the catalog lead to. -/
inductive Published : Config → Prop
  | blank {config : Config} (versions : config.flowVersions = [])
      (steps : config.stepDefinitions = []) (transitions : config.transitionDefinitions = [])
      (tasks : config.taskDefinitions = [])
      (unique : (config.actionCatalog.map ActionRow.key).Nodup) : Published config
  | published {config later : Config} {map : FlowMap WrittenInt} {reply : PublishReply}
      (earlier : Published config) (accepted : map.Accepted config.actionCatalog)
      (returned : publishFlow config map = .ok (later, reply)) : Published later
  | activated {config later : Config} {flowName : String} {version : Int}
      (earlier : Published config) (returned : activateFlow config flowName version = .ok later) :
      Published later
  | catalogued {config : Config} {catalog : List ActionRow} (earlier : Published config)
      (kept : CatalogKept config.actionCatalog catalog) :
      Published { config with actionCatalog := catalog }

structure Config.Faithful (config : Config) : Prop where
  named : ∀ version ∈ config.flowVersions, version.key = version.map.key
  steps : Projects (fun row : StepDefinition => (row.flowName, row.flowVersion))
    (fun map => map.steps.filterMap map.define) config.flowVersions config.stepDefinitions
  tasks : Projects (fun row : TaskDefinition => (row.flowName, row.flowVersion))
    (fun map => map.steps.filterMap map.defineTask) config.flowVersions config.taskDefinitions
  transitions : Projects (fun row : TransitionDefinition => (row.flowName, row.flowVersion))
    (fun map => map.transitions.map map.defineTransition) config.flowVersions
      config.transitionDefinitions
  accepted : ∀ version ∈ config.flowVersions, ∃ catalog,
    version.map.Accepted catalog ∧ CatalogKept catalog config.actionCatalog
  unique : (config.actionCatalog.map ActionRow.key).Nodup

theorem FlowMap.define_owner {map : FlowMap} {row : StepDefinition}
    (member : row ∈ map.steps.filterMap map.define) : (row.flowName, row.flowVersion) = map.key := by
  obtain ⟨step, _, defined⟩ := List.mem_filterMap.mp member
  obtain ⟨_, _, rfl⟩ := Option.map_eq_some_iff.mp defined
  rfl

theorem FlowMap.defineTask_owner {map : FlowMap} {row : TaskDefinition}
    (member : row ∈ map.steps.filterMap map.defineTask) :
    (row.flowName, row.flowVersion) = map.key := by
  obtain ⟨step, _, defined⟩ := List.mem_filterMap.mp member
  simp only [FlowMap.defineTask] at defined
  split at defined
  · obtain ⟨_, _, rfl⟩ := Option.map_eq_some_iff.mp defined
    rfl
  · simp at defined

theorem FlowMap.defineTransition_owner {map : FlowMap} {row : TransitionDefinition}
    (member : row ∈ map.transitions.map map.defineTransition) :
    (row.flowName, row.flowVersion) = map.key := by
  obtain ⟨_, _, rfl⟩ := List.mem_map.mp member
  rfl

namespace Config.Faithful

variable {config : Config}

theorem withMap (faithful : config.Faithful) {map : FlowMap}
    (accepted : map.Accepted config.actionCatalog)
    (absent : config.flowVersion? map.flowName map.version = none) :
    (config.withMap map).Faithful := by
  have fresh : ∀ version ∈ config.flowVersions, version.key ≠ map.key := by
    intro version member same
    have missed := List.find?_eq_none.mp absent version member
    simp only [FlowVersion.key, FlowMap.key, Prod.mk.injEq] at same
    simp [same] at missed
  refine ⟨?_, faithful.steps.publish (fun _ => FlowMap.define_owner) fresh,
    faithful.tasks.publish (fun _ => FlowMap.defineTask_owner) fresh,
    faithful.transitions.publish (fun _ => FlowMap.defineTransition_owner) fresh, ?_,
    faithful.unique⟩
  · intro version member
    rcases List.mem_append.mp member with old | new
    · exact faithful.named version old
    · simp only [List.mem_singleton] at new
      subst new
      rfl
  · intro version member
    rcases List.mem_append.mp member with old | new
    · exact faithful.accepted version old
    · simp only [List.mem_singleton] at new
      subst new
      exact ⟨config.actionCatalog, accepted, fun row inside => ⟨row, inside, rfl⟩,
        faithful.unique⟩

theorem activate (faithful : config.Faithful) {change : FlowVersion → FlowVersion}
    (same : ∀ version, (change version).key = version.key ∧ (change version).map = version.map) :
    Faithful { config with flowVersions := config.flowVersions.map change } := by
  refine ⟨?_, faithful.steps.activate same, faithful.tasks.activate same,
    faithful.transitions.activate same, ?_, faithful.unique⟩
  · intro version member
    obtain ⟨old, inside, rfl⟩ := List.mem_map.mp member
    rw [(same old).1, (same old).2]
    exact faithful.named old inside
  · intro version member
    obtain ⟨old, inside, rfl⟩ := List.mem_map.mp member
    rw [(same old).2]
    exact faithful.accepted old inside

end Config.Faithful

theorem Published.faithful {config : Config} (published : Published config) : config.Faithful := by
  induction published with
  | blank versions steps transitions tasks unique =>
      constructor
      · simp [versions]
      · rw [versions, steps]
        exact .empty
      · rw [versions, tasks]
        exact .empty
      · rw [versions, transitions]
        exact .empty
      · simp [versions]
      · exact unique
  | published earlier accepted returned ih =>
      rcases publishFlow_cases returned with same | ⟨same, absent⟩
      · exact same ▸ ih
      · exact same ▸ ih.withMap (accepted.respelled .byValue) absent
  | activated earlier returned ih =>
      simp only [activateFlow] at returned
      split at returned
      · simp at returned
      split at returned
      · simp at returned
      cases returned
      apply ih.activate
      intro row
      split <;> exact ⟨rfl, rfl⟩
  | catalogued earlier kept ih =>
      refine ⟨ih.named, ih.steps, ih.tasks, ih.transitions, ?_, kept.unique⟩
      intro version member
      obtain ⟨catalog, accepted, before⟩ := ih.accepted version member
      exact ⟨catalog, accepted, before.trans kept⟩

/-! The lookups of the engine, read in the map. -/

theorem find?_filterMap_of {Item Row : Type} {project : Item → Option Row} {wanted : Row → Bool}
    {chosen : Item → Bool} : ∀ (items : List Item),
    (∀ item ∈ items, (project item).any wanted = chosen item) →
      (items.filterMap project).find? wanted = (items.find? chosen).bind project := by
  intro items same
  induction items with
  | nil => rfl
  | cons item rest ih =>
      have here := same item (by simp)
      have later := ih fun other member => same other (by simp [member])
      cases projected : project item with
      | none =>
          have missed : chosen item = false := by rw [← here, projected]; rfl
          simp [projected, missed, later]
      | some row =>
          have agree : chosen item = wanted row := by rw [← here, projected]; rfl
          cases hit : wanted row <;> simp [projected, agree, hit, later]

namespace Config.Faithful

variable {config : Config} {version : FlowVersion}

theorem stepDefinition? (faithful : config.Faithful) (member : version ∈ config.flowVersions)
    (key : String) : config.stepDefinition? version.flowName version.version key =
      (version.map.steps.find? fun step => step.key = key).bind version.map.define := by
  obtain ⟨catalog, accepted, _⟩ := faithful.accepted version member
  have own : config.stepDefinition? version.flowName version.version key =
      (version.map.steps.filterMap version.map.define).find? fun row => row.stepKey = key := by
    rw [← faithful.steps.rows version member, List.find?_filter]
    simp only [Config.stepDefinition?, FlowVersion.key, Prod.mk.injEq]
    congr 1
    funext row
    simp [and_assoc]
  rw [own]
  apply find?_filterMap_of
  intro step inside
  obtain ⟨stepType, kind⟩ := accepted.kind inside
  simp [FlowMap.define, kind.ofText?]

theorem task? (faithful : config.Faithful) (member : version ∈ config.flowVersions)
    {step : FlowStep} (inside : step ∈ version.map.steps) {task : FlowTask}
    (type : step.type = "automatic") (has : step.task = some task) :
    config.task? version.flowName version.version step.key =
      some ⟨version.map.flowName, version.map.version, step.key, task⟩ := by
  obtain ⟨catalog, accepted, _⟩ := faithful.accepted version member
  have own : config.task? version.flowName version.version step.key =
      (version.map.steps.filterMap version.map.defineTask).find? fun row =>
        row.stepKey = step.key := by
    rw [← faithful.tasks.rows version member, List.find?_filter]
    simp only [Config.task?, FlowVersion.key, Prod.mk.injEq]
    congr 1
    funext row
    simp [and_assoc]
  have automatic : StepType.ofText? (upper step.type) = some .automatic := by rw [type]; decide
  have projected : version.map.defineTask step =
      some ⟨version.map.flowName, version.map.version, step.key, task⟩ := by
    simp [FlowMap.defineTask, automatic, has]
  rw [own]
  cases found : (version.map.steps.filterMap version.map.defineTask).find? fun row =>
      row.stepKey = step.key with
  | none =>
      have missed := List.find?_eq_none.mp found _ (List.mem_filterMap.mpr ⟨step, inside, projected⟩)
      simp at missed
  | some row =>
      have keyed := List.find?_some found
      simp only [decide_eq_true_eq] at keyed
      obtain ⟨other, present, same⟩ := List.mem_filterMap.mp (List.mem_of_find?_eq_some found)
      have named : row.stepKey = other.key := by
        simp only [FlowMap.defineTask] at same
        split at same
        · obtain ⟨_, _, rfl⟩ := Option.map_eq_some_iff.mp same
          rfl
        · simp at same
      obtain rfl := Table.key_unique accepted.keys present inside (named.symm.trans keyed)
      rw [← same, projected]

theorem transition? (faithful : config.Faithful) (member : version ∈ config.flowVersions)
    (source outcome : String) :
    (config.transition? version.flowName version.version (some source) (some outcome)).map
      TransitionDefinition.toStepKey = version.map.target? source outcome := by
  have own : config.transition? version.flowName version.version (some source) (some outcome) =
      (version.map.transitions.map version.map.defineTransition).find? fun row =>
        row.fromStepKey = source ∧ row.outcome = outcome := by
    rw [← faithful.transitions.rows version member, List.find?_filter]
    simp only [Config.transition?, FlowVersion.key, Prod.mk.injEq, Option.some.injEq]
    congr 1
    funext row
    simp [and_assoc]
  rw [own, List.find?_map, FlowMap.target?, Option.map_map]
  rfl

theorem defined (faithful : config.Faithful) {flowName : String} {number : Int} {key : String}
    {definition : StepDefinition}
    (found : config.stepDefinition? flowName number key = some definition) :
    ∃ version ∈ config.flowVersions, version.flowName = flowName ∧ version.version = number ∧
      ∃ step ∈ version.map.steps, step.key = key ∧ step.Kind definition.stepType ∧
        definition = ⟨version.map.flowName, version.map.version, key, definition.stepType,
          step.params⟩ := by
  have matched := List.find?_some found
  simp only [decide_eq_true_eq] at matched
  obtain ⟨version, member, owns⟩ := faithful.steps.owned definition
    (List.mem_of_find?_eq_some found)
  simp only [FlowVersion.key, Prod.mk.injEq] at owns
  refine ⟨version, member, owns.1.trans matched.1, owns.2.trans matched.2.1, ?_⟩
  rw [← matched.1, ← matched.2.1, ← owns.1, ← owns.2, faithful.stepDefinition? member] at found
  obtain ⟨step, chosen, projected⟩ := Option.bind_eq_some_iff.mp found
  have inside := List.mem_of_find?_eq_some chosen
  have keyed := List.find?_some chosen
  simp only [decide_eq_true_eq] at keyed
  obtain ⟨catalog, accepted, _⟩ := faithful.accepted version member
  obtain ⟨stepType, kind⟩ := accepted.kind inside
  simp only [FlowMap.define, kind.ofText?, Option.map_some, Option.some.injEq] at projected
  subst projected
  exact ⟨step, inside, keyed, kind, by rw [keyed]⟩

end Config.Faithful

/-! The seeded configuration. -/

theorem publishFlow_catalog {config later : Config} {map : FlowMap WrittenInt} {reply : PublishReply}
    (returned : publishFlow config map = .ok (later, reply)) :
    later.actionCatalog = config.actionCatalog := by
  rcases publishFlow_cases returned with rfl | ⟨rfl, _⟩
  · rfl
  · rfl

namespace Seed

theorem publish_published {config : Config} (published : Published config)
    {entry : FlowMap × Bool} (accepted : entry.1.Accepted config.actionCatalog) :
    Published (publish config entry) ∧
      (publish config entry).actionCatalog = config.actionCatalog := by
  simp only [publish]
  split
  · exact ⟨published, rfl⟩
  rename_i later reply returned
  have next := Published.published published (accepted.respelled .plain) returned
  have catalog := publishFlow_catalog returned
  split
  · cases activated : activateFlow later entry.1.flowName entry.1.version with
    | error _ => exact ⟨next, catalog⟩
    | ok active =>
        refine ⟨next.activated activated, ?_⟩
        simp only [activateFlow] at activated
        split at activated
        · simp at activated
        split at activated
        · simp at activated
        cases activated
        exact catalog
  · exact ⟨next, catalog⟩

theorem foldl_publish {entries : List (FlowMap × Bool)} : ∀ {config : Config},
    Published config → (∀ entry ∈ entries, entry.1.Accepted config.actionCatalog) →
      Published (entries.foldl publish config) := by
  induction entries with
  | nil => exact fun published _ => published
  | cons entry rest ih =>
      intro config published accepted
      obtain ⟨next, catalog⟩ := publish_published published (accepted entry (by simp))
      refine ih next fun other member => ?_
      rw [catalog]
      exact accepted other (by simp [member])

theorem published : Published config := by
  refine foldl_publish (.blank rfl rfl rfl rfl (by decide +kernel)) ?_
  have valid : ∀ entry ∈ [(workflowSmoke, true), (workflowSmokeV2, false), (manualWait, true),
      (paymentProcessing, true), (paymentReview, true)], entry.1.matchesSchema = true ∧
        validateSemantics actionCatalog entry.1 = .ok () := by decide +kernel
  exact fun entry member => ⟨(valid entry member).1, (valid entry member).2⟩

end Seed

end PaymentWorkflow
