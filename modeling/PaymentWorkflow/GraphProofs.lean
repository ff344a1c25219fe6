import PaymentWorkflow.SeedCore
import PaymentWorkflow.ValidatorProofs
import Mathlib.Data.List.Nodup
import Mathlib.Data.List.Count

/-! The semantic validator decides a property of the graph a flow map describes. -/

namespace PaymentWorkflow

namespace FlowTransition

def branch (transition : FlowTransition) : String × String :=
  (transition.fromStep, transition.outcome)

end FlowTransition

section Graph

variable {Number : Type}

namespace FlowMap

def Joined (map : FlowMap Number) (source target : String) : Prop :=
  ∃ transition ∈ map.transitions, transition.fromStep = source ∧ transition.toStep = target

def leaving (map : FlowMap Number) (key outcome : String) : List FlowTransition :=
  map.transitions.filter fun transition => transition.branch = (key, outcome)

section Declared

variable [MapNumber Number]

def published? (catalog : List ActionRow) (task : FlowTask Number) : Option ActionRow :=
  getOrDefault catalog task.module task.action (MapNumber.value task.actionVersion)

def declared? (catalog : List ActionRow) (step : FlowStep Number) : Option (List String) :=
  match step.type with
  | "automatic" => step.task.bind fun task => (published? catalog task).map ActionRow.outcomes
  | "wait_signal" => step.outcome.map fun outcome => [outcome]
  | "manual" => step.allowedOutcomes
  | _ => none

structure WellFormed (catalog : List ActionRow) (map : FlowMap Number) : Prop where
  keys : map.stepKeys.Nodup
  start : map.startStep ∈ map.stepKeys
  joins : ∀ transition ∈ map.transitions,
    transition.fromStep ∈ map.stepKeys ∧ transition.toStep ∈ map.stepKeys
  single : (map.transitions.map FlowTransition.branch).Nodup
  ends : ∀ step ∈ map.steps, step.type = "end" →
    ∀ transition ∈ map.transitions, transition.fromStep ≠ step.key
  reachable : ∀ key ∈ map.stepKeys, Relation.ReflTransGen map.Joined map.startStep key
  ended : ∃ step ∈ map.steps, step.type = "end"
  acyclic : ∀ key, ¬ Relation.TransGen map.Joined key key
  declared : ∀ step ∈ map.steps, step.type ≠ "end" →
    ∃ outcomes, declared? catalog step = some outcomes ∧
      ∀ outcome, (map.leaving step.key outcome).length = if outcome ∈ outcomes then 1 else 0

def TasksPass (catalog : List ActionRow) (map : FlowMap Number) : Prop :=
  ∀ step ∈ map.steps, ∀ task ∈ step.task, ∀ manifest ∈ published? catalog task,
    setEquals task.requiredPolicy manifest.requiredPolicy = true ∧
      validateRetry task.retry = .ok () ∧ validateMapping task = .ok ()

instance {catalog : List ActionRow} {map : FlowMap Number} : Decidable (map.TasksPass catalog) :=
  inferInstanceAs (Decidable (∀ step ∈ map.steps, ∀ task ∈ step.task, _))

end Declared

/-- The action version of every automatic step is written without a point and an exponent. -/
def VersionsPlain (map : FlowMap WrittenInt) : Prop :=
  ∀ step ∈ map.steps, ∀ task ∈ step.task, task.actionVersion.literal.isPlain = true

instance {map : FlowMap WrittenInt} : Decidable map.VersionsPlain :=
  inferInstanceAs (Decidable (∀ step ∈ map.steps, ∀ task ∈ step.task, _))

/-! The edges the searches follow are the transitions. -/

section Edges

variable {map : FlowMap Number}

theorem target?_of_single (single : (map.transitions.map FlowTransition.branch).Nodup)
    {transition : FlowTransition} (member : transition ∈ map.transitions) :
    map.target? transition.fromStep transition.outcome = some transition.toStep := by
  have listed : transition.outcome ∈ map.outgoing transition.fromStep :=
    List.mem_map.mpr ⟨transition, List.mem_filter.mpr ⟨member, by simp⟩, rfl⟩
  obtain ⟨target, leads⟩ := Option.isSome_iff_exists.mp (mem_outgoing.mp listed)
  obtain ⟨other, inside, source, outcome, rfl⟩ := target?_mem leads
  have same : other = transition :=
    List.inj_on_of_nodup_map single inside member (Prod.ext source outcome)
  rw [leads, same]

theorem mem_successors (single : (map.transitions.map FlowTransition.branch).Nodup)
    {source target : String} : target ∈ map.successors source ↔ map.Joined source target := by
  constructor
  · intro member
    obtain ⟨outcome, _, leads⟩ := List.mem_filterMap.mp member
    obtain ⟨transition, inside, leaves, _, arrives⟩ := target?_mem leads
    exact ⟨transition, inside, leaves, arrives⟩
  · rintro ⟨transition, member, rfl, rfl⟩
    exact edge (target?_of_single single member)

theorem successors_closed (joins : ∀ transition ∈ map.transitions,
    transition.fromStep ∈ map.stepKeys ∧ transition.toStep ∈ map.stepKeys) :
    Search.Closed map.successors map.stepKeys := by
  intro source _ target leads
  obtain ⟨outcome, _, found⟩ := List.mem_filterMap.mp leads
  obtain ⟨transition, member, _, _, rfl⟩ := target?_mem found
  exact (joins transition member).2

theorem length_stepKeys : map.stepKeys.length = map.steps.length := List.length_map _

theorem mem_reachable (single : (map.transitions.map FlowTransition.branch).Nodup)
    (start : map.startStep ∈ map.stepKeys) (joins : ∀ transition ∈ map.transitions,
      transition.fromStep ∈ map.stepKeys ∧ transition.toStep ∈ map.stepKeys) {key : String} :
    key ∈ map.reachable ↔ Relation.ReflTransGen map.Joined map.startStep key := by
  have edges : (fun source target => target ∈ map.successors source) = map.Joined := by
    funext source target
    exact propext (mem_successors single)
  rw [reachable, ← length_stepKeys,
    (Search.Frontier.start start).mem_bfs (successors_closed joins), edges]

theorem edge_cycle (single : (map.transitions.map FlowTransition.branch).Nodup) {key : String} :
    Relation.TransGen (Search.Edge map.successors) key key ↔
      Relation.TransGen map.Joined key key := by
  have edges : Search.Edge map.successors = Function.swap map.Joined := by
    funext target source
    exact propext (mem_successors single)
  rw [edges, Relation.transGen_swap]

/-- From the start every step is reached, so a cycle anywhere is one the search meets. -/
theorem hasCycle_iff (single : (map.transitions.map FlowTransition.branch).Nodup)
    (start : map.startStep ∈ map.stepKeys) (joins : ∀ transition ∈ map.transitions,
      transition.fromStep ∈ map.stepKeys ∧ transition.toStep ∈ map.stepKeys)
    (reachable : ∀ key ∈ map.stepKeys, Relation.ReflTransGen map.Joined map.startStep key) :
    Search.hasCycle map.successors (map.steps.length + 1) map.startStep = false ↔
      ∀ key, ¬ Relation.TransGen map.Joined key key := by
  constructor
  · intro none key round
    have deep : Acc (Search.Edge map.successors) map.startStep := Search.hasCycle_acc none
    have source : key ∈ map.stepKeys := by
      obtain ⟨next, ⟨transition, member, rfl, _⟩, _⟩ := Relation.TransGen.head'_iff.mp round
      exact (joins transition member).1
    have here : Acc (Search.Edge map.successors) key := by
      have walk := reachable key source
      clear round source
      induction walk with
      | refl => exact deep
      | tail _ step ih => exact ih.inv ((mem_successors single).mpr step)
    exact Search.not_after_itself here ((edge_cycle single).mpr round)
  · intro acyclic
    rw [← length_stepKeys]
    exact Search.hasCycle_false (successors_closed joins) start
      fun key round => acyclic key ((edge_cycle single).mp round)

theorem leaving_length (single : (map.transitions.map FlowTransition.branch).Nodup)
    {key outcome : String} :
    (map.leaving key outcome).length = if outcome ∈ map.outgoing key then 1 else 0 := by
  have counted : (map.leaving key outcome).length =
      (map.transitions.map FlowTransition.branch).count (key, outcome) := by
    rw [leaving, ← List.countP_eq_length_filter, List.count, List.countP_map]
    exact List.countP_congr fun transition _ => by simp
  have listed : (key, outcome) ∈ map.transitions.map FlowTransition.branch ↔
      outcome ∈ map.outgoing key := by
    simp [outgoing, FlowTransition.branch, and_assoc]
  rw [counted, single.count]
  simp only [listed]

/-- The outcomes of a step are those declared if each of these leaves it exactly once. -/
theorem setEquals_outgoing (single : (map.transitions.map FlowTransition.branch).Nodup)
    {key : String} {outcomes : List String} :
    setEquals (map.outgoing key) outcomes = true ↔
      ∀ outcome, (map.leaving key outcome).length = if outcome ∈ outcomes then 1 else 0 := by
  rw [setEquals_iff]
  refine forall_congr' fun outcome => ?_
  rw [leaving_length single]
  by_cases left : outcome ∈ map.outgoing key <;> by_cases right : outcome ∈ outcomes <;>
    simp [left, right]

end Edges

/-! The checks, one by one. -/

section Checks

variable {map : FlowMap Number}

theorem checkStepKeys_ok {steps : List (FlowStep Number)} : ∀ {seen : List String},
    (∃ after, steps.foldlM checkStepKey seen = .ok after) ↔
      (steps.map FlowStep.key).Nodup ∧ ∀ step ∈ steps, step.key ∉ seen := by
  intro seen
  refine ⟨fun ⟨after, finished⟩ => checkStepKeys_nodup steps seen after finished, ?_⟩
  rintro ⟨nodup, new⟩
  induction steps generalizing seen with
  | nil => exact ⟨seen, rfl⟩
  | cons step rest ih =>
      rw [List.map_cons, List.nodup_cons] at nodup
      have later : ∀ other ∈ rest, other.key ∉ step.key :: seen := by
        intro other member
        rw [List.mem_cons, not_or]
        refine ⟨fun same => nodup.1 ?_, new other (List.mem_cons_of_mem _ member)⟩
        exact List.mem_map.mpr ⟨other, member, same⟩
      obtain ⟨after, finished⟩ := ih nodup.2 later
      refine ⟨after, ?_⟩
      rw [List.foldlM_cons, Runs.bind_eq_ok]
      exact ⟨step.key :: seen, if_neg (new step List.mem_cons_self), finished⟩

def seenAs (transition : FlowTransition) : String :=
  transition.fromStep ++ "\x00" ++ transition.outcome

theorem checkTransition_ok {seen after : List String} {transition : FlowTransition} :
    checkTransition map seen transition = .ok after ↔
      (transition.fromStep ∈ map.stepKeys ∧ transition.toStep ∈ map.stepKeys) ∧
        seenAs transition ∉ seen ∧ map.stepType? transition.fromStep ≠ some "end" ∧
          after = seenAs transition :: seen := by
  simp only [checkTransition, seenAs]
  constructor
  · intro passed
    split at passed
    · cases passed
    rename_i known
    split at passed
    · cases passed
    rename_i new
    split at passed
    · cases passed
    rename_i notEnd
    cases passed
    exact ⟨by simpa [not_or] using known, new, notEnd, rfl⟩
  · rintro ⟨⟨source, target⟩, new, notEnd, rfl⟩
    simp [source, target, new, notEnd]

theorem checkTransitions_ok {transitions : List FlowTransition} : ∀ {seen : List String},
    (∃ after, transitions.foldlM (checkTransition map) seen = .ok after) ↔
      (∀ transition ∈ transitions,
        (transition.fromStep ∈ map.stepKeys ∧ transition.toStep ∈ map.stepKeys) ∧
          seenAs transition ∉ seen ∧ map.stepType? transition.fromStep ≠ some "end") ∧
        (transitions.map seenAs).Nodup := by
  induction transitions with
  | nil => exact fun {seen} => ⟨fun _ => ⟨nofun, List.nodup_nil⟩, fun _ => ⟨seen, rfl⟩⟩
  | cons transition rest ih =>
      intro seen
      simp only [List.foldlM_cons, Runs.bind_eq_ok, checkTransition_ok, List.map_cons,
        List.nodup_cons, List.mem_cons, forall_eq_or_imp]
      constructor
      · rintro ⟨after, between, ⟨known, new, notEnd, rfl⟩, finished⟩
        obtain ⟨each, distinct⟩ := ih.mp ⟨after, finished⟩
        refine ⟨⟨⟨known, new, notEnd⟩, fun other member => ?_⟩, fun again => ?_, distinct⟩
        · obtain ⟨joined, fresh, type⟩ := each other member
          exact ⟨joined, fun old => fresh (List.mem_cons_of_mem _ old), type⟩
        · obtain ⟨other, member, same⟩ := List.mem_map.mp again
          exact (each other member).2.1 (same ▸ List.mem_cons_self)
      · rintro ⟨⟨⟨known, new, notEnd⟩, each⟩, once, distinct⟩
        have later : ∀ other ∈ rest,
            (other.fromStep ∈ map.stepKeys ∧ other.toStep ∈ map.stepKeys) ∧
              seenAs other ∉ seenAs transition :: seen ∧
                map.stepType? other.fromStep ≠ some "end" := by
          intro other member
          obtain ⟨joined, fresh, type⟩ := each other member
          refine ⟨joined, ?_, type⟩
          rw [List.mem_cons, not_or]
          exact ⟨fun same => once (List.mem_map.mpr ⟨other, member, same⟩), fresh⟩
        obtain ⟨after, finished⟩ := ih.mpr ⟨later, distinct⟩
        exact ⟨after, _, ⟨known, new, notEnd, rfl⟩, finished⟩

/-! A name the schema accepts has no character that separates two names. -/

theorem atEnd_chars {first next : Char → Bool} {content : String}
    (matched : atEnd (isIdentifier first next) content = true) :
    ∀ char ∈ content.toList, first char = true ∨ next char = true ∨ char = '\n' := by
  have within : ∀ chars, isIdentifier first next chars = true →
      ∀ char ∈ chars, first char = true ∨ next char = true := by
    intro chars identifier char member
    cases chars with
    | nil => cases member
    | cons head tail =>
        simp only [isIdentifier, Bool.and_eq_true, List.all_eq_true] at identifier
        rcases List.mem_cons.mp member with rfl | inside
        · exact .inl identifier.1.1
        · exact .inr (identifier.1.2 char inside)
  intro char member
  simp only [atEnd, Bool.or_eq_true, Bool.and_eq_true, decide_eq_true_eq] at matched
  rcases matched with whole | ⟨newline, most⟩
  · exact (within _ whole char member).imp_right .inl
  · have split := List.dropLast_append_getLast? '\n' newline
    rw [← split] at member
    rcases List.mem_append.mp member with inside | last
    · exact (within _ most char inside).imp_right .inl
    · exact .inr (.inr (List.mem_singleton.mp last))

theorem isKey_separated {content : String} (key : isKey content = true) :
    Char.ofNat 0 ∉ content.toList := by
  intro member
  have chars := atEnd_chars key _ member
  revert chars
  decide

theorem isOutcome_separated {content : String} (outcome : isOutcome content = true) :
    Char.ofNat 0 ∉ content.toList := by
  intro member
  have chars := atEnd_chars outcome _ member
  revert chars
  decide

theorem seenAs_inj {left right : FlowTransition} (schema : right.matchesSchema = true) :
    seenAs left = seenAs right ↔ left.branch = right.branch := by
  simp only [FlowTransition.matchesSchema, Bool.and_eq_true] at schema
  constructor
  · intro same
    have texts := congrArg String.toList same
    simp only [seenAs, String.toList_append, List.append_assoc] at texts
    have parts := (List.append_cons_inj_of_notMem (isKey_separated schema.1.1)
      (isOutcome_separated schema.1.2)).mp texts.symm
    exact Prod.ext (String.ext parts.1.symm) (String.ext parts.2.2.symm)
  · intro same
    simp only [FlowTransition.branch, Prod.mk.injEq] at same
    rw [seenAs, seenAs, same.1, same.2]

theorem seenAs_nodup (schema : ∀ transition ∈ map.transitions, transition.matchesSchema = true) :
    (map.transitions.map seenAs).Nodup ↔ (map.transitions.map FlowTransition.branch).Nodup := by
  simp only [List.Nodup, List.pairwise_map]
  refine List.Pairwise.iff_of_mem fun {left right} _ member => ?_
  exact not_congr (seenAs_inj (schema right member))

theorem stepType?_of_keys (keys : map.stepKeys.Nodup) {step : FlowStep Number}
    (member : step ∈ map.steps) : map.stepType? step.key = some step.type := by
  have found : map.steps.find? (fun row => row.key = step.key) = some step :=
    Table.lookup_of_mem keys member
  rw [stepType?, found]
  rfl

theorem ends_iff (keys : map.stepKeys.Nodup) :
    (∀ transition ∈ map.transitions, map.stepType? transition.fromStep ≠ some "end") ↔
      ∀ step ∈ map.steps, step.type = "end" →
        ∀ transition ∈ map.transitions, transition.fromStep ≠ step.key := by
  constructor
  · rintro none step member type transition leaves same
    apply none transition leaves
    rw [same, stepType?_of_keys keys member, type]
  · intro none transition leaves type
    obtain ⟨step, found, same⟩ := Option.map_eq_some_iff.mp type
    have source := List.find?_some found
    exact none step (List.mem_of_find?_eq_some found) same transition leaves
      (of_decide_eq_true source).symm

theorem ended_iff (keys : map.stepKeys.Nodup) (reached : ∀ key ∈ map.stepKeys, key ∈ map.reachable) :
    (map.stepKeys.any fun key => map.stepType? key = some "end" ∧ key ∈ map.reachable) = true ↔
      ∃ step ∈ map.steps, step.type = "end" := by
  simp only [List.any_eq_true, decide_eq_true_eq]
  constructor
  · rintro ⟨key, member, type, _⟩
    obtain ⟨step, inside, rfl⟩ := List.mem_map.mp member
    rw [stepType?_of_keys keys inside, Option.some.injEq] at type
    exact ⟨step, inside, type⟩
  · rintro ⟨step, inside, type⟩
    have member : step.key ∈ map.stepKeys := List.mem_map_of_mem inside
    exact ⟨step.key, member, by rw [stepType?_of_keys keys inside, type], reached _ member⟩

end Checks

end FlowMap

end Graph

/-! The checks of a step. -/

namespace FlowMap

section Members

variable {Number : Type} [MapNumber Number] {map : FlowMap Number}

theorem steps_schema (schema : map.matchesSchema = true) :
    ∀ step ∈ map.steps, step.matchesSchema = true := by
  simp only [FlowMap.matchesSchema, Bool.and_eq_true, List.all_eq_true] at schema
  exact schema.1.1.1.2

theorem transitions_schema (schema : map.matchesSchema = true) :
    ∀ transition ∈ map.transitions, transition.matchesSchema = true := by
  simp only [FlowMap.matchesSchema, Bool.and_eq_true, List.all_eq_true] at schema
  exact schema.2

end Members

section Steps

variable {map : FlowMap WrittenInt} {catalog : List ActionRow}

theorem checkManifest_ok {key : String} {actual : List String} {task : FlowTask WrittenInt}
    {manifest : ActionRow} {named : String} (enabled : manifest.enabled = true)
    (policy : setEquals task.requiredPolicy manifest.requiredPolicy = true)
    (retry : validateRetry task.retry = .ok ()) (mapping : validateMapping task = .ok ()) :
    checkManifest key actual task manifest named = .ok () ↔
      setEquals actual manifest.outcomes = true := by
  simp only [checkManifest, Runs.bind_eq_ok, require_ok, enabled, policy, retry, mapping]
  simp

theorem published?_range {task : FlowTask WrittenInt} {manifest : ActionRow}
    (schema : task.matchesSchema = true) (versions : ∀ row ∈ catalog, row.version < 2 ^ 31)
    (found : published? catalog task = some manifest) : isInt task.actionVersion.value = true := by
  simp only [FlowTask.matchesSchema, Bool.and_eq_true, decide_eq_true_eq] at schema
  have positive : 1 ≤ task.actionVersion.value := schema.1.1.1.1.1.1.1.1.2
  have matched := List.find?_some found
  simp only [decide_eq_true_eq] at matched
  have same : manifest.version = task.actionVersion.value := matched.2.2.1
  have range := versions manifest (List.mem_of_find?_eq_some found)
  simp only [isInt, Bool.and_eq_true, decide_eq_true_eq]
  omega

theorem checkTask_ok {key : String} {actual : List String} {task : FlowTask WrittenInt}
    (schema : task.matchesSchema = true)
    (versions : ∀ row ∈ catalog, row.version < 2 ^ 31)
    (passes : ∀ manifest, published? catalog task = some manifest →
      setEquals task.requiredPolicy manifest.requiredPolicy = true ∧
        validateRetry task.retry = .ok () ∧ validateMapping task = .ok ()) :
    checkTask catalog key actual task = .ok () ↔
      task.actionVersion.literal.isPlain = true ∧ ∃ manifest,
        published? catalog task = some manifest ∧ setEquals actual manifest.outcomes = true := by
  have service : task.service = "postgres" := by
    simp only [FlowTask.matchesSchema, Bool.and_eq_true, decide_eq_true_eq] at schema
    exact schema.1.1.1.1.1.1.1.1.1.1.1
  simp only [checkTask, Runs.bind_eq_ok, require_ok, service, getInt_written]
  constructor
  · rintro ⟨_, _, version, read, listed⟩
    split at read
    · rename_i readable
      obtain rfl := Except.ok.inj read
      rw [Bool.and_eq_true] at readable
      refine ⟨readable.1, ?_⟩
      split at listed
      · simp [invalid] at listed
      rename_i manifest found
      have enabled := List.find?_some found
      simp only [decide_eq_true_eq] at enabled
      obtain ⟨policy, retry, mapping⟩ := passes manifest found
      exact ⟨manifest, found, (checkManifest_ok enabled.2.2.2 policy retry mapping).mp listed⟩
    · cases read
  · rintro ⟨plain, manifest, found, equal⟩
    have range := published?_range schema versions found
    refine ⟨(), trivial, task.actionVersion.value, by simp [plain, range], ?_⟩
    have enabled := List.find?_some found
    simp only [decide_eq_true_eq] at enabled
    obtain ⟨policy, retry, mapping⟩ := passes manifest found
    have listed : getOrDefault catalog task.module task.action task.actionVersion.value =
        some manifest := found
    rw [listed]
    exact (checkManifest_ok enabled.2.2.2 policy retry mapping).mpr equal

theorem checkTask_raises {key : String} {actual : List String} {task : FlowTask WrittenInt}
    (schema : task.matchesSchema = true) (written : task.actionVersion.literal.isPlain = false) :
    checkTask catalog key actual task = .error .raised := by
  have service : task.service = "postgres" := by
    simp only [FlowTask.matchesSchema, Bool.and_eq_true, decide_eq_true_eq] at schema
    exact schema.1.1.1.1.1.1.1.1.1.1.1
  simp [checkTask, require, service, getInt_written, written, bind, Except.bind]

theorem checkStep_ok {step : FlowStep WrittenInt} (schema : step.matchesSchema = true)
    (versions : ∀ row ∈ catalog, row.version < 2 ^ 31)
    (passes : ∀ task ∈ step.task, ∀ manifest ∈ published? catalog task,
      setEquals task.requiredPolicy manifest.requiredPolicy = true ∧
        validateRetry task.retry = .ok () ∧ validateMapping task = .ok ()) :
    checkStep catalog map step = .ok () ↔
      (∀ task ∈ step.task, task.actionVersion.literal.isPlain = true) ∧
        (step.type = "end" → map.outgoing step.key = []) ∧
          (step.type ≠ "end" → ∃ outcomes, declared? catalog step = some outcomes ∧
            setEquals (map.outgoing step.key) outcomes = true) := by
  simp only [FlowStep.matchesSchema, Bool.and_eq_true] at schema
  obtain ⟨_, shape⟩ := schema
  split at shape
  · rename_i task type has _ _ _
    simp only [checkStep, declared?, type, has, Option.bind_some, Option.map_eq_some_iff,
      checkTask_ok shape versions (passes task has)]
    simp
  · rename_i signalType outcome type lacks awaits has _
    simp only [checkStep, declared?, type, has, lacks, Option.map_some, require_ok]
    simp
  · rename_i outcomes type lacks _ _ has
    simp only [Bool.and_eq_true, decide_eq_true_eq] at shape
    simp only [checkStep, declared?, type, has, lacks, Runs.bind_eq_ok, require_ok,
      Option.getD_some]
    simp [shape.1.1]
  · rename_i outcome type lacks _ has _
    simp only [checkStep, type, lacks, require_ok]
    simp
  · cases shape

theorem checkStep_raises {step : FlowStep WrittenInt} (schema : step.matchesSchema = true)
    {task : FlowTask WrittenInt} (has : step.task = some task)
    (written : task.actionVersion.literal.isPlain = false) :
    checkStep catalog map step = .error .raised := by
  simp only [FlowStep.matchesSchema, Bool.and_eq_true] at schema
  obtain ⟨_, shape⟩ := schema
  split at shape
  · rename_i other type same _ _ _
    obtain rfl := Option.some.inj (has.symm.trans same)
    simp only [checkStep, type, has]
    exact checkTask_raises shape written
  · rename_i lacks _ _ _
    rw [has] at lacks
    cases lacks
  · rename_i lacks _ _ _
    rw [has] at lacks
    cases lacks
  · rename_i lacks _ _ _
    rw [has] at lacks
    cases lacks
  · cases shape

end Steps

section Verdict

variable {catalog : List ActionRow} {map : FlowMap WrittenInt}

theorem wellFormed_of_accepted (schema : map.matchesSchema = true)
    (versions : ∀ row ∈ catalog, row.version < 2 ^ 31) (passes : map.TasksPass catalog)
    (accepted : validateSemantics catalog map = .ok ()) :
    map.WellFormed catalog ∧ map.VersionsPlain := by
  simp only [validateSemantics, Runs.bind_eq_ok, require_ok, checkAll_ok] at accepted
  obtain ⟨_, keysChecked, _, start, _, transitionsChecked, _, reached, _, endReached, _,
    searched, stepsChecked⟩ := accepted
  have keys := (checkStepKeys_ok.mp ⟨_, keysChecked⟩).1
  obtain ⟨each, distinct⟩ := checkTransitions_ok.mp ⟨_, transitionsChecked⟩
  have single := (seenAs_nodup (transitions_schema schema)).mp distinct
  have joins := fun transition member => (each transition member).1
  have reachable : ∀ key ∈ map.stepKeys, Relation.ReflTransGen map.Joined map.startStep key :=
    fun key member => (mem_reachable single start joins).mp (require_ok.mp (reached key member))
  have steps := fun step member => (checkStep_ok (steps_schema schema step member) versions
    (passes step member)).mp (stepsChecked step member)
  refine ⟨⟨keys, start, joins, single, ?_, reachable, ?_, ?_, ?_⟩, fun step member =>
    (steps step member).1⟩
  · exact (ends_iff keys).mp fun transition member => (each transition member).2.2
  · exact (ended_iff keys fun key member => require_ok.mp (reached key member)).mp endReached
  · exact (hasCycle_iff single start joins reachable).mp searched
  · intro step member notEnd
    obtain ⟨outcomes, declared, equal⟩ := (steps step member).2.2 notEnd
    exact ⟨outcomes, declared, (setEquals_outgoing single).mp equal⟩

/-- Of a well-formed map only the checks of the steps are left. -/
theorem WellFormed.validates (formed : map.WellFormed catalog) (schema : map.matchesSchema = true) :
    validateSemantics catalog map = checkAll (checkStep catalog map) map.steps := by
  obtain ⟨keys, start, joins, single, ends, reachable, ended, acyclic, declared⟩ := formed
  have reached : ∀ key ∈ map.stepKeys, key ∈ map.reachable :=
    fun key member => (mem_reachable single start joins).mpr (reachable key member)
  have notEnd := (ends_iff keys).mpr ends
  obtain ⟨_, keysChecked⟩ : ∃ after, map.steps.foldlM checkStepKey [] = .ok after :=
    checkStepKeys_ok.mpr ⟨keys, fun _ _ => List.not_mem_nil⟩
  obtain ⟨_, transitionsChecked⟩ :
      ∃ after, map.transitions.foldlM (checkTransition map) [] = .ok after := by
    refine checkTransitions_ok.mpr ⟨fun transition member => ?_, ?_⟩
    · exact ⟨joins transition member, List.not_mem_nil, notEnd transition member⟩
    · exact (seenAs_nodup (transitions_schema schema)).mpr single
  have reachedChecked : checkAll (checkReachable map) map.stepKeys = .ok () :=
    checkAll_ok.mpr fun key member => require_ok.mpr (reached key member)
  have searched := (hasCycle_iff single start joins reachable).mpr acyclic
  rw [validateSemantics, keysChecked]
  simp only [bind, Except.bind, require, start, if_true, transitionsChecked, reachedChecked,
    (ended_iff keys reached).mpr ended, searched]

theorem WellFormed.step_ok (formed : map.WellFormed catalog) (schema : map.matchesSchema = true)
    (versions : ∀ row ∈ catalog, row.version < 2 ^ 31) (passes : map.TasksPass catalog)
    {step : FlowStep WrittenInt} (member : step ∈ map.steps)
    (plain : ∀ task ∈ step.task, task.actionVersion.literal.isPlain = true) :
    checkStep catalog map step = .ok () := by
  refine (checkStep_ok (steps_schema schema step member) versions (passes step member)).mpr
    ⟨plain, ?_, ?_⟩
  · intro type
    refine List.map_eq_nil_iff.mpr (List.filter_eq_nil_iff.mpr fun transition leaves => ?_)
    simpa using formed.ends step member type transition leaves
  · intro type
    obtain ⟨outcomes, listed, counted⟩ := formed.declared step member type
    exact ⟨outcomes, listed, (setEquals_outgoing formed.single).mpr counted⟩

theorem WellFormed.accepted (formed : map.WellFormed catalog) (schema : map.matchesSchema = true)
    (versions : ∀ row ∈ catalog, row.version < 2 ^ 31) (passes : map.TasksPass catalog)
    (plain : map.VersionsPlain) : validateSemantics catalog map = .ok () := by
  rw [formed.validates schema, checkAll_ok]
  exact fun step member => formed.step_ok schema versions passes member (plain step member)

/-- The first task whose version is not written as an integer ends the validation. -/
theorem WellFormed.raises (formed : map.WellFormed catalog) (schema : map.matchesSchema = true)
    (versions : ∀ row ∈ catalog, row.version < 2 ^ 31) (passes : map.TasksPass catalog)
    (written : ¬ map.VersionsPlain) : validateSemantics catalog map = .error .raised := by
  rw [formed.validates schema]
  refine checkAll_raised (fun step member => ?_) fun checked => ?_
  · by_cases plain : ∀ task ∈ step.task, task.actionVersion.literal.isPlain = true
    · exact .inl (formed.step_ok schema versions passes member plain)
    · obtain ⟨task, rest⟩ := Classical.not_forall.mp plain
      obtain ⟨has, point⟩ := Classical.not_imp.mp rest
      exact .inr (checkStep_raises (steps_schema schema step member) has (by simpa using point))
  · refine written fun step member => ?_
    exact ((checkStep_ok (steps_schema schema step member) versions (passes step member)).mp
      (checked step member)).1

end Verdict

/-- For a map of the schema whose tasks pass their own checks, the validator decides the graph
predicate where `GetValue<int>` can read the action versions, and throws where it cannot; and on
any map neither search is ever stopped by its bound. -/
theorem validateSemantics_iff (catalog : List ActionRow) (map : FlowMap WrittenInt) :
    (map.matchesSchema = true → (∀ row ∈ catalog, row.version < 2 ^ 31) →
        map.TasksPass catalog →
          (validateSemantics catalog map = .ok () ↔
            map.WellFormed catalog ∧ map.VersionsPlain) ∧
          (map.WellFormed catalog → ¬ map.VersionsPlain →
            validateSemantics catalog map = .error .raised)) ∧
      (map.startStep ∈ map.stepKeys → (∀ transition ∈ map.transitions,
          transition.fromStep ∈ map.stepKeys ∧ transition.toStep ∈ map.stepKeys) → ∀ more,
        Search.bfs map.successors (map.steps.length + more) [map.startStep] [map.startStep] =
            map.reachable ∧
          Search.hasCycle map.successors (map.steps.length + 1 + more) map.startStep =
            Search.hasCycle map.successors (map.steps.length + 1) map.startStep) := by
  refine ⟨fun schema versions passes => ⟨⟨wellFormed_of_accepted schema versions passes, ?_⟩, ?_⟩,
    fun start joins more => ⟨?_, ?_⟩⟩
  · rintro ⟨formed, plain⟩
    exact formed.accepted schema versions passes plain
  · exact fun formed => formed.raises schema versions passes
  · rw [reachable, ← length_stepKeys]
    exact (Search.Frontier.start start).bfs_enough (successors_closed joins) more
  · rw [← length_stepKeys]
    exact Search.hasCycle_enough (successors_closed joins) start more

end FlowMap

theorem Seed.paymentProcessing_wellFormed :
    (Seed.paymentProcessing.map WrittenInt.plain).WellFormed Seed.actionCatalog :=
  (((FlowMap.validateSemantics_iff Seed.actionCatalog
    (Seed.paymentProcessing.map WrittenInt.plain)).1 (by decide +kernel) (by decide +kernel)
      (by decide +kernel)).1.mp (by decide +kernel)).1

namespace Seed

def onePointZero : WrittenInt where
  literal := {
    negative := false, whole := ['1'], fraction := ['0'], exponent := none
    filled := by decide, leading := .inr (by decide)
    wholeDigits := List.forall_mem_singleton.mpr rfl
    fractionDigits := List.forall_mem_singleton.mpr rfl }
  integral := by decide

def pinned (actionVersion : WrittenInt) : FlowMap WrittenInt where
  contractVersion := "course-1"
  flowName := "pinned"
  version := .plain 1
  startStep := "invoke_canary"
  steps := [{
    key := "invoke_canary"
    type := "automatic"
    task := some {
      service := "postgres", module := "training", action := "canary", actionVersion
      requiredPolicy := ["workflow:execute"], timeoutMs := .plain 2000
      retry := ⟨some (.plain 1), []⟩, inputMapping := [("/value", "/value")]
      inputConstants := [] } },
    (finish "done" "COMPLETED").map WrittenInt.plain]
  transitions := [⟨"invoke_canary", "APPLIED", "done"⟩]

theorem pinned_wellFormed : (pinned onePointZero).WellFormed actionCatalog := by
  have plain : (pinned (.plain 1)).WellFormed actionCatalog :=
    (((FlowMap.validateSemantics_iff actionCatalog (pinned (.plain 1))).1 (by decide +kernel)
      (by decide +kernel) (by decide +kernel)).1.mp (by decide +kernel)).1
  refine ⟨plain.keys, plain.start, plain.joins, plain.single, by decide, plain.reachable,
    by decide, plain.acyclic, ?_⟩
  intro step member notEnd
  rcases List.mem_cons.mp member with rfl | last
  · exact ⟨["APPLIED"], by decide +kernel, (plain.declared _ List.mem_cons_self notEnd).elim
      fun outcomes declared => by
        have same : outcomes = ["APPLIED"] := Option.some.inj (declared.1.symm.trans (by decide +kernel))
        exact same ▸ declared.2⟩
  · obtain rfl := List.mem_singleton.mp last
    exact absurd rfl notEnd

end Seed

/-- 1.0 is an integer to the schema and not to `GetValue<int>`. -/
theorem pointed_version_throws : ¬ ∀ (catalog : List ActionRow) (map : FlowMap WrittenInt),
    map.matchesSchema = true → (∀ row ∈ catalog, row.version < 2 ^ 31) → map.TasksPass catalog →
      (validateSemantics catalog map = .ok () ↔ map.WellFormed catalog) := by
  intro exact_
  have accepted := (exact_ Seed.actionCatalog (Seed.pinned Seed.onePointZero) (by decide +kernel)
    (by decide +kernel) (by decide +kernel)).mpr Seed.pinned_wellFormed
  have raised : validateSemantics Seed.actionCatalog (Seed.pinned Seed.onePointZero) =
      .error .raised := by decide +kernel
  rw [raised] at accepted
  cases accepted

end PaymentWorkflow
