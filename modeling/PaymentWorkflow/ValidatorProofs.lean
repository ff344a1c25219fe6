import PaymentWorkflow.ValidatorCore
import PaymentWorkflow.PublishCore
import PaymentWorkflow.Runs

/-! What the two validators have established of a map they accept. -/

namespace PaymentWorkflow

theorem require_ok {holds : Prop} [Decidable holds] {message : String} {passed : Unit} :
    require holds message = .ok passed ↔ holds := by
  by_cases met : holds <;> simp [require, met, invalid]

theorem checkAll_ok {Item : Type} {check : Item → Check} {items : List Item} {passed : Unit} :
    checkAll check items = .ok passed ↔ ∀ item ∈ items, check item = .ok () := by
  induction items with
  | nil => simp [checkAll]
  | cons item rest ih =>
      simp only [checkAll, Runs.bind_eq_ok, ih, List.mem_cons, forall_eq_or_imp]
      constructor
      · rintro ⟨_, first, later⟩
        exact ⟨first, later⟩
      · rintro ⟨first, later⟩
        exact ⟨(), first, later⟩

theorem checkAll_raised {Item : Type} {check : Item → Check} {items : List Item}
    (each : ∀ item ∈ items, check item = .ok () ∨ check item = .error .raised)
    (some_ : ¬ ∀ item ∈ items, check item = .ok ()) : checkAll check items = .error .raised := by
  induction items with
  | nil => simp at some_
  | cons item rest ih =>
      rw [checkAll]
      rcases each item List.mem_cons_self with passed | raised
      · rw [passed]
        refine ih (fun other member => each other (List.mem_cons_of_mem _ member)) fun later => ?_
        exact some_ (List.forall_mem_cons.mpr ⟨passed, later⟩)
      · rw [raised]
        rfl

theorem setEquals_iff {left right : List String} :
    setEquals left right = true ↔ ∀ item, item ∈ left ↔ item ∈ right := by
  simp only [setEquals, Bool.and_eq_true, List.all_eq_true, decide_eq_true_eq]
  constructor
  · rintro ⟨forth, back⟩ item
    exact ⟨forth item, back item⟩
  · intro same
    exact ⟨fun item => (same item).mp, fun item => (same item).mpr⟩

/-! The members a step of each type has. -/

inductive FlowStep.Kind (step : FlowStep) : StepType → Prop
  | automatic (task : FlowTask) (type : step.type = "automatic") (has : step.task = some task)
      (schema : task.matchesSchema = true) : Kind step .automatic
  | waitSignal (signalType outcome : String) (type : step.type = "wait_signal")
      (awaits : step.signalType = some signalType) (has : step.outcome = some outcome) :
      Kind step .waitSignal
  | manual (outcomes : List String) (type : step.type = "manual")
      (has : step.allowedOutcomes = some outcomes) : Kind step .manual
  | endStep (outcome : String) (type : step.type = "end") (has : step.outcome = some outcome) :
      Kind step .endStep

theorem FlowStep.kind {step : FlowStep} (schema : step.matchesSchema = true) :
    ∃ stepType, step.Kind stepType := by
  simp only [FlowStep.matchesSchema, Bool.and_eq_true] at schema
  obtain ⟨_, shape⟩ := schema
  split at shape
  · rename_i task type has _ _ _
    exact ⟨.automatic, .automatic task type has shape⟩
  · rename_i signalType outcome type _ awaits has _
    exact ⟨.waitSignal, .waitSignal signalType outcome type awaits has⟩
  · rename_i outcomes type _ _ _ has
    exact ⟨.manual, .manual outcomes type has⟩
  · rename_i outcome type _ _ has _
    exact ⟨.endStep, .endStep outcome type has⟩
  · simp at shape

theorem FlowStep.Kind.ofText? {step : FlowStep} {stepType : StepType}
    (kind : step.Kind stepType) : StepType.ofText? (upper step.type) = some stepType := by
  cases kind with
  | automatic _ type | waitSignal _ _ type | manual _ type | endStep _ type =>
      rw [type]
      decide

/-! The loops over the steps and the transitions. -/

section Loops

variable {Number : Type}

theorem checkStepKeys_nodup : ∀ (steps : List (FlowStep Number)) (seen after : List String),
    steps.foldlM checkStepKey seen = .ok after →
      (steps.map FlowStep.key).Nodup ∧ ∀ step ∈ steps, step.key ∉ seen := by
  intro steps
  induction steps with
  | nil => simp
  | cons step rest ih =>
      intro seen after finished
      simp only [List.foldlM_cons, checkStepKey] at finished
      split at finished
      · simp [invalid, bind, Except.bind] at finished
      rename_i new
      obtain ⟨nodup, unseen⟩ := ih _ after finished
      refine ⟨List.nodup_cons.mpr ⟨?_, nodup⟩, ?_⟩
      · intro member
        obtain ⟨other, inside, same⟩ := List.mem_map.mp member
        exact unseen other inside (by simp [same])
      · intro other member
        rcases List.mem_cons.mp member with same | inside
        · exact same ▸ new
        · intro old
          exact unseen other inside (by simp [old])

theorem checkTransitions_known {map : FlowMap Number} :
    ∀ (transitions : List FlowTransition) (seen after : List String),
      transitions.foldlM (checkTransition map) seen = .ok after →
        ∀ transition ∈ transitions, transition.fromStep ∈ map.stepKeys ∧
          transition.toStep ∈ map.stepKeys := by
  intro transitions
  induction transitions with
  | nil => simp
  | cons transition rest ih =>
      intro seen after finished
      simp only [List.foldlM_cons] at finished
      obtain ⟨between, first, later⟩ := Runs.bind_eq_ok.mp finished
      intro other member
      rcases List.mem_cons.mp member with same | inside
      · subst same
        simp only [checkTransition] at first
        split at first
        · simp [invalid] at first
        · rename_i known
          simpa [not_or] using known
      · exact ih between after later other inside

theorem FlowMap.target?_mem {map : FlowMap Number} {key outcome target : String}
    (leads : map.target? key outcome = some target) : ∃ transition ∈ map.transitions,
      transition.fromStep = key ∧ transition.outcome = outcome ∧ transition.toStep = target := by
  obtain ⟨transition, found, rfl⟩ := Option.map_eq_some_iff.mp leads
  have matched := List.find?_some found
  simp only [decide_eq_true_eq] at matched
  exact ⟨transition, List.mem_of_find?_eq_some found, matched.1, matched.2, rfl⟩

theorem FlowMap.mem_outgoing {map : FlowMap Number} {key outcome : String} :
    outcome ∈ map.outgoing key ↔ (map.target? key outcome).isSome = true := by
  simp only [FlowMap.outgoing, FlowMap.target?, List.mem_map, List.mem_filter, decide_eq_true_eq,
    Option.isSome_map, List.find?_isSome]
  constructor
  · rintro ⟨transition, ⟨member, source⟩, same⟩
    exact ⟨transition, member, source, same⟩
  · rintro ⟨transition, member, source, same⟩
    exact ⟨transition, ⟨member, source⟩, same⟩

theorem FlowMap.edge {map : FlowMap Number} {key outcome target : String}
    (leads : map.target? key outcome = some target) :
    Search.Edge map.successors target key := by
  have listed : outcome ∈ map.outgoing key := FlowMap.mem_outgoing.mpr (by simp [leads])
  exact List.mem_filterMap.mpr ⟨outcome, listed, leads⟩

end Loops

namespace FlowMap.Accepted

variable {catalog : List ActionRow} {map : FlowMap}

theorem parts (accepted : map.Accepted catalog) :
    map.stepKeys.Nodup ∧ map.startStep ∈ map.stepKeys ∧
      (∀ transition ∈ map.transitions, transition.fromStep ∈ map.stepKeys ∧
        transition.toStep ∈ map.stepKeys) ∧
      Acc (Search.Edge map.successors) map.startStep ∧
      ∀ step ∈ map.steps, checkStep catalog map step = .ok () := by
  have semantics := accepted.semantics
  simp only [validateSemantics, Runs.bind_eq_ok, require_ok, checkAll_ok] at semantics
  obtain ⟨_, keys, _, start, _, transitions, _, _, _, _, _, acyclic, steps⟩ := semantics
  exact ⟨(checkStepKeys_nodup _ _ _ keys).1, start, checkTransitions_known _ _ _ transitions,
    Search.hasCycle_acc acyclic, steps⟩

theorem keys (accepted : map.Accepted catalog) : map.stepKeys.Nodup := accepted.parts.1

theorem start (accepted : map.Accepted catalog) : map.startStep ∈ map.stepKeys :=
  accepted.parts.2.1

theorem target (accepted : map.Accepted catalog) {key outcome target : String}
    (leads : map.target? key outcome = some target) : target ∈ map.stepKeys := by
  obtain ⟨transition, member, _, _, rfl⟩ := target?_mem leads
  exact (accepted.parts.2.2.1 transition member).2

theorem acyclic (accepted : map.Accepted catalog) : Acc (Search.Edge map.successors) map.startStep :=
  accepted.parts.2.2.2.1

theorem checked (accepted : map.Accepted catalog) {step : FlowStep} (member : step ∈ map.steps) :
    checkStep catalog map step = .ok () :=
  accepted.parts.2.2.2.2 step member

theorem kind (accepted : map.Accepted catalog) {step : FlowStep} (member : step ∈ map.steps) :
    ∃ stepType, step.Kind stepType := by
  have schema := accepted.schema
  simp only [FlowMap.matchesSchema, Bool.and_eq_true, List.all_eq_true] at schema
  exact FlowStep.kind (schema.1.1.1.2 step member)

theorem step (accepted : map.Accepted catalog) {step : FlowStep} (member : step ∈ map.steps) :
    map.steps.find? (fun row => row.key = step.key) = some step :=
  Table.lookup_of_mem accepted.keys member

theorem task (accepted : map.Accepted catalog) {step : FlowStep} (member : step ∈ map.steps)
    {task : FlowTask} (type : step.type = "automatic") (has : step.task = some task) :
    ∃ manifest, getOrDefault catalog task.module task.action task.actionVersion = some manifest ∧
      (∀ outcome, outcome ∈ map.outgoing step.key ↔ outcome ∈ manifest.outcomes) ∧
      (∀ policy, policy ∈ task.requiredPolicy ↔ policy ∈ manifest.requiredPolicy) ∧
      validateRetry task.retry = .ok () ∧ validateMapping task = .ok () := by
  have checked := accepted.checked member
  simp only [checkStep, type, has, checkTask, Runs.bind_eq_ok, require_ok] at checked
  obtain ⟨_, _, version, read, listed⟩ := checked
  have same : version = task.actionVersion := MapNumber.getInt_value read
  subst same
  split at listed
  · simp [invalid] at listed
  rename_i manifest found
  simp only [checkManifest, Runs.bind_eq_ok, require_ok, setEquals_iff] at listed
  obtain ⟨_, _, _, outcomes, _, policy, _, retry, mapping⟩ := listed
  exact ⟨manifest, found, outcomes, policy, retry, mapping⟩

theorem waits (accepted : map.Accepted catalog) {step : FlowStep} (member : step ∈ map.steps)
    {outcome : String} (type : step.type = "wait_signal") (has : step.outcome = some outcome) :
    ∀ other, other ∈ map.outgoing step.key ↔ other = outcome := by
  have checked := accepted.checked member
  simp only [checkStep, type, has, require_ok, setEquals_iff, List.mem_singleton] at checked
  exact checked

theorem decides (accepted : map.Accepted catalog) {step : FlowStep} (member : step ∈ map.steps)
    {outcomes : List String} (type : step.type = "manual")
    (has : step.allowedOutcomes = some outcomes) :
    ∀ outcome, outcome ∈ map.outgoing step.key ↔ outcome ∈ outcomes := by
  have checked := accepted.checked member
  simp only [checkStep, type, has, Runs.bind_eq_ok, require_ok, setEquals_iff,
    Option.getD_some] at checked
  obtain ⟨_, _, same⟩ := checked
  exact same

end FlowMap.Accepted

theorem validateRetry_ok {retry : Retry} (valid : validateRetry retry = .ok ()) :
    ∃ count : Nat, retry.maxAttempts = some (count : Int) ∧ 1 ≤ count ∧ count ≤ 10 ∧
      retry.delaysMs.length + 1 = count := by
  simp only [validateRetry, Runs.bind_eq_ok, require_ok] at valid
  obtain ⟨most, read, _, range, delays⟩ := valid
  cases stored : retry.maxAttempts with
  | none =>
      simp only [stored, Option.elim_none, Except.ok.injEq] at read
      omega
  | some count =>
      rw [stored, Option.elim_some] at read
      have same : most = count := MapNumber.getInt_value read
      have nonneg : (count.toNat : Int) = count := Int.toNat_of_nonneg (by omega)
      exact ⟨count.toNat, by rw [nonneg], by omega, by omega, by omega⟩

/-! A map that says the same of every number is accepted as well. -/

section Spelling

variable {Number Other : Type} [MapNumber Number] [MapNumber Other]

structure Respells (spell : Number → Other) : Prop where
  value : ∀ number, MapNumber.value (spell number) = MapNumber.value number
  getInt : ∀ {number : Number} {read : Int}, getInt number = .ok read →
    getInt (spell number) = .ok read

theorem Respells.byValue : Respells WrittenInt.value where
  value := fun _ => rfl
  getInt := by
    intro number read ok
    rw [getInt_written] at ok
    split at ok
    · rename_i readable
      rw [Bool.and_eq_true] at readable
      rw [getInt_int, if_pos readable.2, ok]
    · cases ok

theorem Respells.plain : Respells WrittenInt.plain where
  value := WrittenInt.value_plain_int
  getInt := by
    intro number read ok
    rw [getInt_written, WrittenInt.isPlain_plain, WrittenInt.value_plain_int, Bool.true_and]
    rwa [getInt_int] at ok

variable {spell : Number → Other} {map : FlowMap Number} {catalog : List ActionRow}

theorem Retry.matchesSchema_map (respells : Respells spell) (retry : Retry Number) :
    (retry.map spell).matchesSchema = retry.matchesSchema := by
  have counts : ∀ number, (decide (1 ≤ MapNumber.value (spell number)) &&
      decide (MapNumber.value (spell number) ≤ 10)) =
        (decide (1 ≤ MapNumber.value number) && decide (MapNumber.value number ≤ 10)) :=
    fun number => by rw [respells.value]
  have delays : ∀ number, (decide (0 ≤ MapNumber.value (spell number)) &&
      decide (MapNumber.value (spell number) ≤ 30000)) =
        (decide (0 ≤ MapNumber.value number) && decide (MapNumber.value number ≤ 30000)) :=
    fun number => by rw [respells.value]
  simp only [Retry.matchesSchema, Retry.map, Option.any_map, List.length_map, List.all_map,
    Function.comp_def, counts, delays]

theorem FlowTask.matchesSchema_map (respells : Respells spell) (task : FlowTask Number) :
    (task.map spell).matchesSchema = task.matchesSchema := by
  have version : MapNumber.value (task.map spell).actionVersion =
      MapNumber.value task.actionVersion := respells.value _
  have timeout : MapNumber.value (task.map spell).timeoutMs = MapNumber.value task.timeoutMs :=
    respells.value _
  have retry : (task.map spell).retry.matchesSchema = task.retry.matchesSchema :=
    Retry.matchesSchema_map respells task.retry
  rw [FlowTask.matchesSchema, version, timeout, retry]
  rfl

theorem FlowStep.matchesSchema_map (respells : Respells spell) (step : FlowStep Number) :
    (step.map spell).matchesSchema = step.matchesSchema := by
  obtain ⟨key, type, task, signalType, outcome, allowed⟩ := step
  simp only [FlowStep.matchesSchema, FlowStep.map]
  congr 1
  cases task with
  | none =>
      rw [Option.map_none]
      split <;> simp_all
  | some task =>
      have same := FlowTask.matchesSchema_map respells task
      rw [Option.map_some]
      generalize task.map spell = mapped at same
      split <;> simp_all

theorem FlowMap.matchesSchema_map (respells : Respells spell) (map : FlowMap Number) :
    (map.map spell).matchesSchema = map.matchesSchema := by
  have version : MapNumber.value (map.map spell).version = MapNumber.value map.version :=
    respells.value _
  have length : (map.map spell).steps.length = map.steps.length := List.length_map _
  have steps : (map.map spell).steps.all FlowStep.matchesSchema =
      map.steps.all FlowStep.matchesSchema := by
    simp only [FlowMap.map, List.all_map, Function.comp_def,
      FlowStep.matchesSchema_map respells]
  rw [FlowMap.matchesSchema, version, length, steps]
  rfl

omit [MapNumber Number] [MapNumber Other] in
theorem FlowMap.stepKeys_map : (map.map spell).stepKeys = map.stepKeys := by
  simp [FlowMap.stepKeys, FlowMap.map, FlowStep.map, Function.comp_def]

omit [MapNumber Number] [MapNumber Other] in
theorem FlowMap.stepType?_map (key : String) :
    (map.map spell).stepType? key = map.stepType? key := by
  simp [FlowMap.stepType?, FlowMap.map, FlowStep.map, List.find?_map, Function.comp_def]

omit [MapNumber Number] [MapNumber Other] in
theorem FlowMap.successors_map : (map.map spell).successors = map.successors := rfl

omit [MapNumber Number] [MapNumber Other] in
theorem FlowMap.checkTransition_map : checkTransition (map.map spell) = checkTransition map := by
  funext seen transition
  simp only [checkTransition, FlowMap.stepKeys_map, FlowMap.stepType?_map]

omit [MapNumber Number] [MapNumber Other] in
theorem FlowMap.length_steps_map : (map.map spell).steps.length = map.steps.length :=
  List.length_map _

omit [MapNumber Number] [MapNumber Other] in
theorem FlowMap.reachable_map : (map.map spell).reachable = map.reachable := by
  rw [FlowMap.reachable, FlowMap.successors_map, FlowMap.length_steps_map]
  rfl

theorem validateRetry_map (respells : Respells spell) {retry : Retry Number}
    (valid : validateRetry retry = .ok ()) : validateRetry (retry.map spell) = .ok () := by
  simp only [validateRetry, Runs.bind_eq_ok] at valid ⊢
  obtain ⟨most, read, range, inside, delays⟩ := valid
  refine ⟨most, ?_, range, inside, ?_⟩
  · cases stored : retry.maxAttempts with
    | none => simpa [Retry.map, stored] using read
    | some count =>
        rw [stored, Option.elim_some] at read
        simpa [Retry.map, stored] using respells.getInt read
  · simpa [Retry.map] using delays

theorem checkTask_map (respells : Respells spell) {key : String} {actual : List String}
    {task : FlowTask Number} (valid : checkTask catalog key actual task = .ok ()) :
    checkTask catalog key actual (task.map spell) = .ok () := by
  simp only [checkTask, Runs.bind_eq_ok] at valid ⊢
  obtain ⟨service, postgres, version, read, listed⟩ := valid
  refine ⟨service, postgres, version, respells.getInt read, ?_⟩
  split at listed
  · simp [invalid] at listed
  rename_i manifest found
  have same : getOrDefault catalog (task.map spell).module (task.map spell).action version =
      some manifest := found
  rw [same]
  simp only [checkManifest, Runs.bind_eq_ok] at listed ⊢
  obtain ⟨_, enabled, _, outcomes, _, policy, _, retry, mapping⟩ := listed
  exact ⟨_, enabled, _, outcomes, _, policy, _, validateRetry_map respells retry, mapping⟩

theorem checkStep_map (respells : Respells spell) {step : FlowStep Number}
    (valid : checkStep catalog map step = .ok ()) :
    checkStep catalog (map.map spell) (step.map spell) = .ok () := by
  have outgoing : (map.map spell).outgoing = map.outgoing := rfl
  obtain ⟨key, type, task, signalType, outcome, allowed⟩ := step
  simp only [checkStep, FlowStep.map, outgoing] at valid ⊢
  split at valid
  · cases task with
    | none => exact valid
    | some task => exact checkTask_map respells valid
  all_goals exact valid

theorem validateSemantics_map (respells : Respells spell)
    (valid : validateSemantics catalog map = .ok ()) :
    validateSemantics catalog (map.map spell) = .ok () := by
  have keys : (map.map spell).steps.foldlM checkStepKey [] = map.steps.foldlM checkStepKey [] := by
    simp only [FlowMap.map, List.foldlM_map]
    rfl
  simp only [validateSemantics, Runs.bind_eq_ok, require_ok, checkAll_ok, keys,
    FlowMap.length_steps_map, FlowMap.stepKeys_map, FlowMap.stepType?_map, FlowMap.checkTransition_map, checkReachable,
    FlowMap.reachable_map, FlowMap.successors_map] at valid ⊢
  obtain ⟨seen, unique, _, start, ended, transitions, _, reachable, _, ends, _, acyclic, steps⟩ :=
    valid
  refine ⟨seen, unique, (), start, ended, transitions, (), reachable, (), ends, (), acyclic, ?_⟩
  intro step member
  obtain ⟨original, inside, rfl⟩ := List.mem_map.mp member
  exact checkStep_map respells (steps original inside)

theorem FlowMap.Accepted.checks (accepted : map.Accepted catalog) {step : FlowStep Number}
    (member : step ∈ map.steps) : checkStep catalog map step = .ok () := by
  have semantics := accepted.semantics
  simp only [validateSemantics, Runs.bind_eq_ok, require_ok, checkAll_ok] at semantics
  obtain ⟨_, _, _, _, _, _, _, _, _, _, _, _, steps⟩ := semantics
  exact steps step member

theorem FlowMap.Accepted.respelled (respells : Respells spell) (accepted : map.Accepted catalog) :
    (map.map spell).Accepted catalog where
  schema := (FlowMap.matchesSchema_map respells map).trans accepted.schema
  semantics := validateSemantics_map respells accepted.semantics

end Spelling

end PaymentWorkflow
