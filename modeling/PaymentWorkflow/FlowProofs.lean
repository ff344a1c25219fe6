import PaymentWorkflow.FlowCore
import PaymentWorkflow.PublishProofs

/-! The rows of a published version are the projection of its map, and stay what they are. -/

namespace PaymentWorkflow

/-! Blocks of statements. -/

theorem runBlock_cons {statement : FlowStatement} {rest : List FlowStatement}
    {flows later : Flows} : runBlock (statement :: rest) flows = (later, none) ↔
      ∃ between, statement flows = .ok between ∧ runBlock rest between = (later, none) := by
  rw [runBlock]
  cases statement flows <;> simp

theorem runBlock_append {left right : List FlowStatement} : ∀ {flows later : Flows},
    runBlock (left ++ right) flows = (later, none) ↔
      ∃ between, runBlock left flows = (between, none) ∧ runBlock right between = (later, none) := by
  induction left with
  | nil => simp [runBlock]
  | cons statement rest ih =>
      intro flows later
      simp only [List.cons_append, runBlock_cons, ih]
      constructor
      · rintro ⟨first, ran, between, middle, last⟩
        exact ⟨between, ⟨first, ran, middle⟩, last⟩
      · rintro ⟨between, ⟨first, ran, middle⟩, last⟩
        exact ⟨first, ran, between, middle, last⟩

/-! The projection of a map. -/

namespace Json

def flowKey? (map : Json) : Option (String × Int) :=
  match map.text? "flow_name", map.integer "version" with
  | some flow, .ok (some version) => some (flow, version)
  | _, _ => none

def stepRow? (key : String × Int) (entry : Json × Nat) : Option StepRow :=
  match entry.1.without ["key", "type", "task"], entry.1.text? "key",
      (entry.1.text? "type").bind fun type => StepType.ofText? (upper type) with
  | .ok params, some stepKey, some stepType =>
      some ⟨key.1, key.2, stepKey, stepType, params, entry.2⟩
  | _, _, _ => none

def taskRow? (key : String × Int) (step : Json) : Option TaskRow :=
  let task := (step.member? "task").getD .null
  match task.integer "action_version", task.integer "timeout_ms" with
  | .ok actionVersion, .ok timeoutMs =>
      Flows.taskRow key.1 key.2 (step.text? "key") task actionVersion timeoutMs
  | _, _ => none

def transitionRow? (key : String × Int) (transition : Json) : Option TransitionDefinition := do
  some ⟨key.1, key.2, ← transition.text? "from", ← transition.text? "outcome",
    ← transition.text? "to"⟩

def listed (map : Json) (name : String) : List Json := (elements (map.member? name)).toOption.getD []

def projectSteps (key : String × Int) (map : Json) : Option (List StepRow) :=
  ((map.listed "steps").zipIdx 1).mapM (stepRow? key)

def projectTasks (key : String × Int) (map : Json) : Option (List TaskRow) :=
  ((map.listed "steps").filter Flows.isAutomatic).mapM (taskRow? key)

def projectTransitions (key : String × Int) (map : Json) : Option (List TransitionDefinition) :=
  (map.listed "transitions").mapM (transitionRow? key)

end Json

def VersionRow.key (row : VersionRow) : String × Int := (row.flowName, row.version)

def StepRow.owner (row : StepRow) : String × Int := (row.flowName, row.flowVersion)

def TaskRow.owner (row : TaskRow) : String × Int := (row.flowName, row.flowVersion)

def TransitionDefinition.owner (row : TransitionDefinition) : String × Int :=
  (row.flowName, row.flowVersion)

namespace Json

variable {key : String × Int}

theorem stepRow?_owner {entry : Json × Nat} {row : StepRow} (made : stepRow? key entry = some row) :
    row.owner = key := by
  unfold stepRow? at made
  split at made
  · cases made
    rfl
  · cases made

theorem taskRow?_owner {step : Json} {row : TaskRow} (made : taskRow? key step = some row) :
    row.owner = key := by
  simp only [taskRow?, Flows.taskRow] at made
  split at made
  · simp only [Option.bind_eq_bind, Option.bind_eq_some_iff] at made
    obtain ⟨_, _, _, _, _, _, _, _, _, _, _, _, _, _, _, _, _, _, same⟩ := made
    cases same
    rfl
  · cases made

theorem transitionRow?_owner {transition : Json} {row : TransitionDefinition}
    (made : transitionRow? key transition = some row) : row.owner = key := by
  simp only [transitionRow?, Option.bind_eq_bind, Option.bind_eq_some_iff] at made
  obtain ⟨_, _, _, _, _, _, same⟩ := made
  cases same
  rfl

theorem mapM_forall {Item Row : Type} {make : Item → Option Row} {holds : Row → Prop}
    (each : ∀ item row, make item = some row → holds row) : ∀ {items : List Item} {rows : List Row},
      items.mapM make = some rows → ∀ row ∈ rows, holds row := by
  intro items
  induction items with
  | nil =>
      intro rows made
      cases made
      simp
  | cons item rest ih =>
      intro rows made row member
      simp only [List.mapM_cons, Option.bind_eq_bind, Option.bind_eq_some_iff] at made
      obtain ⟨first, here, others, there, same⟩ := made
      cases same
      rcases List.mem_cons.mp member with rfl | later
      · exact each item row here
      · exact ih there row later

end Json

/-! What a statement that goes through adds. -/

namespace Flows

variable {flows later : Flows} {flow : String} {version : Int}

theorem insertStepDefinition_ok {step : Json} {sortOrder : Nat}
    (returned : insertStepDefinition flow version step sortOrder flows = .ok later) :
    ∃ row, Json.stepRow? (flow, version) (step, sortOrder) = some row ∧
      later = { flows with steps := flows.steps ++ [row] } := by
  unfold insertStepDefinition at returned
  split at returned
  · cases returned
  rename_i params stripped
  split at returned
  · rename_i stepKey type keyed typed
    split at returned
    · cases returned
    rename_i stepType known
    split at returned
    · cases returned
    cases returned
    exact ⟨_, by simp [Json.stepRow?, stripped, keyed, typed, known], rfl⟩
  · cases returned

theorem insertTaskDefinition_ok {step : Json}
    (returned : insertTaskDefinition flow version step flows = .ok later) :
    ∃ row, Json.taskRow? (flow, version) step = some row ∧
      later = { flows with tasks := flows.tasks ++ [row] } := by
  obtain ⟨actionVersion, first, returned⟩ := Runs.bind_eq_ok.mp returned
  obtain ⟨timeoutMs, second, returned⟩ := Runs.bind_eq_ok.mp returned
  split at returned
  · cases returned
  rename_i row made
  split at returned
  · cases returned
  split at returned
  · cases returned
  cases returned
  exact ⟨row, by simp [Json.taskRow?, first, second, made], rfl⟩

theorem insertTransitionDefinition_ok {transition : Json}
    (returned : insertTransitionDefinition flow version transition flows = .ok later) :
    ∃ row, Json.transitionRow? (flow, version) transition = some row ∧
      later = { flows with transitions := flows.transitions ++ [row] } := by
  unfold insertTransitionDefinition at returned
  split at returned
  · rename_i source outcome target fromKey named toKey
    split at returned
    · cases returned
    split at returned
    · cases returned
    cases returned
    exact ⟨_, by simp [Json.transitionRow?, fromKey, named, toKey], rfl⟩
  · cases returned

theorem stepStatements_ok {entry : Json × Nat}
    (returned : runBlock (stepStatements flow version entry) flows = (later, none)) :
    ∃ row tasks, Json.stepRow? (flow, version) entry = some row ∧
      (if isAutomatic entry.1 then [entry.1] else []).mapM (Json.taskRow? (flow, version)) =
        some tasks ∧
      later = { flows with steps := flows.steps ++ [row], tasks := flows.tasks ++ tasks } := by
  obtain ⟨between, first, returned⟩ := runBlock_cons.mp returned
  obtain ⟨row, made, rfl⟩ := insertStepDefinition_ok first
  by_cases automatic : isAutomatic entry.1 = true
  · rw [if_pos automatic] at returned ⊢
    obtain ⟨last, second, done⟩ := runBlock_cons.mp returned
    obtain ⟨task, projected, rfl⟩ := insertTaskDefinition_ok second
    cases done
    exact ⟨row, [task], made, by simp [projected], rfl⟩
  · rw [if_neg automatic] at returned ⊢
    cases returned
    exact ⟨row, [], made, rfl, by simp⟩

theorem stepLoop_ok : ∀ {entries : List (Json × Nat)} {flows later : Flows},
    runBlock (entries.flatMap (stepStatements flow version)) flows = (later, none) →
    ∃ rows tasks, entries.mapM (Json.stepRow? (flow, version)) = some rows ∧
      ((entries.map Prod.fst).filter isAutomatic).mapM (Json.taskRow? (flow, version)) =
        some tasks ∧
      later = { flows with steps := flows.steps ++ rows, tasks := flows.tasks ++ tasks } := by
  intro entries
  induction entries with
  | nil =>
      intro flows later returned
      cases returned
      exact ⟨[], [], rfl, rfl, by simp⟩
  | cons entry rest ih =>
      intro flows later returned
      rw [List.flatMap_cons] at returned
      obtain ⟨between, first, returned⟩ := runBlock_append.mp returned
      obtain ⟨row, own, made, projected, rfl⟩ := stepStatements_ok first
      obtain ⟨rows, tasks, others, more, rfl⟩ := ih returned
      refine ⟨row :: rows, own ++ tasks, by simp [made, others], ?_, by simp⟩
      have split : ((entry :: rest).map Prod.fst).filter isAutomatic =
          (if isAutomatic entry.1 then [entry.1] else []) ++
            (rest.map Prod.fst).filter isAutomatic := by
        rw [List.map_cons, List.filter_cons]
        split <;> rfl
      rw [split, List.mapM_append, projected, more]
      rfl

theorem transitionLoop_ok : ∀ {items : List Json} {flows later : Flows},
    runBlock (items.map (insertTransitionDefinition flow version)) flows = (later, none) →
    ∃ rows, items.mapM (Json.transitionRow? (flow, version)) = some rows ∧
      later = { flows with transitions := flows.transitions ++ rows } := by
  intro items
  induction items with
  | nil =>
      intro flows later returned
      cases returned
      exact ⟨[], rfl, by simp⟩
  | cons item rest ih =>
      intro flows later returned
      obtain ⟨between, first, returned⟩ := runBlock_cons.mp returned
      obtain ⟨row, made, rfl⟩ := insertTransitionDefinition_ok first
      obtain ⟨rows, others, rfl⟩ := ih returned
      exact ⟨row :: rows, by simp [made, others], by simp⟩

theorem loop_ok {statements : List Json → List FlowStatement} {map : Json} {name : String}
    (returned : runBlock (loop statements (map.member? name)) flows = (later, none)) :
    runBlock (statements (map.listed name)) flows = (later, none) := by
  unfold loop at returned
  unfold Json.listed
  split at returned
  · rename_i failed
    cases returned
  · rename_i items listed
    rwa [listed]

end Flows

/-! A table of rows that belong to versions. -/

/-- The rows each version owns are the projection of its map, and every row is owned. -/
structure Owned {Row : Type} (owner : Row → String × Int)
    (project : String × Int → Json → Option (List Row)) (versions : List VersionRow)
    (table : List Row) : Prop where
  rows : ∀ version ∈ versions, project version.key version.map =
    some (table.filter fun row => owner row = version.key)
  owned : ∀ row ∈ table, ∃ version ∈ versions, version.key = owner row

namespace Owned

variable {Row : Type} {owner : Row → String × Int}
  {project : String × Int → Json → Option (List Row)} {versions : List VersionRow}
  {table added : List Row} {version : VersionRow}

theorem empty : Owned owner project [] [] := ⟨nofun, nofun⟩

theorem filter_other {key other : String × Int} (owns : ∀ row ∈ added, owner row = other)
    (different : other ≠ key) :
    (table ++ added).filter (fun row => owner row = key) =
      table.filter fun row => owner row = key := by
  have none : added.filter (fun row => owner row = key) = [] := by
    rw [List.filter_eq_nil_iff]
    intro row inside
    simpa [owns row inside] using different
  rw [List.filter_append, none, List.append_nil]

theorem filter_absent (owned : Owned owner project versions table) {key : String × Int}
    (absent : ∀ version ∈ versions, version.key ≠ key) :
    table.filter (fun row => owner row = key) = [] := by
  rw [List.filter_eq_nil_iff]
  intro row inside
  obtain ⟨version, member, same⟩ := owned.owned row inside
  simpa [← same] using absent version member

theorem publish (owned : Owned owner project versions table)
    (made : project version.key version.map = some added)
    (owns : ∀ row ∈ added, owner row = version.key)
    (absent : ∀ other ∈ versions, other.key ≠ version.key) :
    Owned owner project (versions ++ [version]) (table ++ added) where
  rows := by
    intro other member
    rcases List.mem_append.mp member with old | new
    · rw [filter_other owns (Ne.symm (absent other old))]
      exact owned.rows other old
    · rw [List.mem_singleton.mp new, made, List.filter_append, owned.filter_absent absent,
        List.nil_append]
      congr 1
      symm
      rw [List.filter_eq_self]
      intro row inside
      simpa using owns row inside
  owned := by
    intro row member
    rcases List.mem_append.mp member with old | new
    · obtain ⟨other, inside, same⟩ := owned.owned row old
      exact ⟨other, List.mem_append_left _ inside, same⟩
    · exact ⟨version, by simp, (owns row new).symm⟩

theorem update (owned : Owned owner project versions table) {change : VersionRow → VersionRow}
    (same : ∀ version, (change version).key = version.key ∧ (change version).map = version.map) :
    Owned owner project (versions.map change) table where
  rows := by
    intro version member
    obtain ⟨old, inside, rfl⟩ := List.mem_map.mp member
    rw [(same old).1, (same old).2]
    exact owned.rows old inside
  owned := by
    intro row member
    obtain ⟨version, inside, keyed⟩ := owned.owned row member
    exact ⟨change version, List.mem_map_of_mem inside, (same version).1.trans keyed⟩

end Owned

namespace Flows

def withVersion (flows : Flows) (names : List String) (version : VersionRow) (steps : List StepRow)
    (tasks : List TaskRow) (transitions : List TransitionDefinition) : Flows where
  names
  versions := flows.versions ++ [version]
  steps := flows.steps ++ steps
  tasks := flows.tasks ++ tasks
  transitions := flows.transitions ++ transitions

inductive Publishes (flows : Flows) (map : Json) : Flows → Prop
  | nothing : Publishes flows map flows
  | published {names : List String} {flow : String} {version : Int} {steps : List StepRow}
      {tasks : List TaskRow} {transitions : List TransitionDefinition}
      (keyed : map.flowKey? = some (flow, version))
      (contract : breaksContract map (some flow) (some version) = false)
      (absent : flows.version? (some flow) (some version) = none)
      (stepped : map.projectSteps (flow, version) = some steps)
      (tasked : map.projectTasks (flow, version) = some tasks)
      (linked : map.projectTransitions (flow, version) = some transitions) :
      Publishes flows map
        (flows.withVersion names ⟨flow, version, false, map⟩ steps tasks transitions)

variable {flows later : Flows} {map : Json}

theorem publishStatements_ok {flow : Option String} {version : Option Int}
    (returned : runBlock (publishStatements map flow version) flows = (later, none)) :
    ∃ name number names steps tasks transitions, flow = some name ∧ version = some number ∧
      map.projectSteps (name, number) = some steps ∧ map.projectTasks (name, number) = some tasks ∧
      map.projectTransitions (name, number) = some transitions ∧
      later = flows.withVersion names ⟨name, number, false, map⟩ steps tasks transitions := by
  unfold publishStatements at returned
  obtain ⟨stepped, returned, last⟩ := runBlock_append.mp returned
  obtain ⟨inserted, returned, looped⟩ := runBlock_append.mp returned
  obtain ⟨named, first, returned⟩ := runBlock_cons.mp returned
  obtain ⟨versioned, second, done⟩ := runBlock_cons.mp returned
  cases done
  cases flow with
  | none => cases first
  | some name =>
      cases version with
      | none => cases second
      | some number =>
          simp only [insertFlowVersion] at second
          split at second
          · cases second
          cases second
          obtain ⟨rows, tasks, made, projected, rfl⟩ := stepLoop_ok (loop_ok looped)
          obtain ⟨transitions, linked, rfl⟩ := transitionLoop_ok (loop_ok last)
          have firsts : ((map.listed "steps").zipIdx 1).map Prod.fst = map.listed "steps" := by simp
          rw [firsts] at projected
          refine ⟨name, number, named.names, rows, tasks, transitions, rfl, rfl, made, projected,
            linked, ?_⟩
          simp only [insertFlowDefinition] at first
          split at first <;> cases first <;> rfl

theorem publishFlow_publishes : Publishes flows map (flows.publishFlow map).1 ∧
    ((flows.publishFlow map).2 ≠ .ok .published → (flows.publishFlow map).1 = flows) := by
  unfold publishFlow
  dsimp only
  cases cast : map.integer "version" with
  | error error => exact ⟨.nothing, fun _ => rfl⟩
  | ok version =>
      dsimp only
      split
      · exact ⟨.nothing, fun _ => rfl⟩
      rename_i contract
      split
      · exact ⟨.nothing, fun _ => rfl⟩
      rename_i absent
      split
      · rename_i later ran
        obtain ⟨name, number, names, steps, tasks, transitions, flow, rfl, stepped, tasked, linked,
          rfl⟩ := publishStatements_ok ran
        rw [flow] at absent contract
        refine ⟨.published ?_ (by simpa using contract) absent stepped tasked linked,
          fun other => absurd rfl other⟩
        simp [Json.flowKey?, flow, cast]
      · split <;> exact ⟨.nothing, fun _ => rfl⟩
      · exact ⟨.nothing, fun _ => rfl⟩

theorem version?_eq_none {flow : String} {version : Int} :
    flows.version? (some flow) (some version) = none ↔
      ∀ row ∈ flows.versions, row.key ≠ (flow, version) := by
  simp [version?, VersionRow.key]

structure Sound (flows : Flows) : Prop where
  keyed : ∀ row ∈ flows.versions, row.map.flowKey? = some row.key
  contract : ∀ row ∈ flows.versions,
    breaksContract row.map (some row.flowName) (some row.version) = false
  unique : (flows.versions.map VersionRow.key).Nodup
  active : ((flows.versions.filter VersionRow.isActive).map VersionRow.flowName).Nodup
  steps : Owned StepRow.owner Json.projectSteps flows.versions flows.steps
  tasks : Owned TaskRow.owner Json.projectTasks flows.versions flows.tasks
  transitions : Owned TransitionDefinition.owner Json.projectTransitions flows.versions
    flows.transitions

theorem Sound.blank : Sound {} where
  keyed := nofun
  contract := nofun
  unique := List.nodup_nil
  active := List.nodup_nil
  steps := .empty
  tasks := .empty
  transitions := .empty

theorem Sound.publish (sound : flows.Sound) (publishes : Publishes flows map later) :
    later.Sound := by
  cases publishes with
  | nothing => exact sound
  | @published names flow version steps tasks transitions keyed contract absent stepped tasked
      linked =>
      have fresh := version?_eq_none.mp absent
      refine ⟨?_, ?_, ?_, ?_, ?_, ?_, ?_⟩
      · intro row member
        rcases List.mem_append.mp member with old | new
        · exact sound.keyed row old
        · rw [List.mem_singleton.mp new]
          exact keyed
      · intro row member
        rcases List.mem_append.mp member with old | new
        · exact sound.contract row old
        · rw [List.mem_singleton.mp new]
          exact contract
      · rw [withVersion, List.map_append, List.nodup_append]
        refine ⟨sound.unique, by simp, ?_⟩
        intro left leftMember right rightMember same
        obtain ⟨row, member, rfl⟩ := List.mem_map.mp leftMember
        rw [List.map_singleton, List.mem_singleton] at rightMember
        exact fresh row member (same.trans rightMember)
      · simpa [withVersion] using sound.active
      · exact sound.steps.publish stepped (Json.mapM_forall (fun _ _ => Json.stepRow?_owner) stepped)
          fresh
      · exact sound.tasks.publish tasked (Json.mapM_forall (fun _ _ => Json.taskRow?_owner) tasked)
          fresh
      · exact sound.transitions.publish linked
          (Json.mapM_forall (fun _ _ => Json.transitionRow?_owner) linked) fresh

theorem pairwise_active {versions : List VersionRow} :
    ((versions.filter VersionRow.isActive).map VersionRow.flowName).Nodup ↔
      versions.Pairwise fun left right =>
        left.isActive = true → right.isActive = true → left.flowName ≠ right.flowName := by
  rw [List.Nodup, List.pairwise_map, List.pairwise_filter]

def flag (chosen : VersionRow → Bool) (value : Bool) (row : VersionRow) : VersionRow :=
  if chosen row then { row with isActive := value } else row

theorem flag_same {chosen : VersionRow → Bool} {value : Bool} (row : VersionRow) :
    (flag chosen value row).key = row.key ∧ (flag chosen value row).map = row.map := by
  unfold flag
  split <;> exact ⟨rfl, rfl⟩

theorem mapM_flag {chosen : VersionRow → Bool} {value : Bool} {versions : List VersionRow} :
    (versions.mapM fun row =>
      if chosen row then assertFlowVersionImmutable row { row with isActive := value }
      else .ok row) = .ok (versions.map (flag chosen value)) := by
  induction versions with
  | nil => rfl
  | cons row rest ih =>
      have own : (if chosen row then assertFlowVersionImmutable row { row with isActive := value }
          else .ok row) = .ok (flag chosen value row) := by
        unfold flag assertFlowVersionImmutable
        split <;> simp [Json.same_refl]
      rw [List.mapM_cons, own]
      simp only [bind, Except.bind, ih]
      rfl

theorem updateVersions_flag {chosen : VersionRow → Bool} {value : Bool} :
    flows.updateVersions chosen (fun row => { row with isActive := value }) =
      if (((flows.versions.map (flag chosen value)).filter VersionRow.isActive).map
          VersionRow.flowName).Nodup then
        .ok { flows with versions := flows.versions.map (flag chosen value) }
      else .error (.raised .uniqueViolation) := by
  unfold updateVersions
  rw [mapM_flag]
  rfl

inductive Activates (flows : Flows) : Flows → Prop
  | nothing : Activates flows flows
  | flagged {change : VersionRow → VersionRow}
      (same : ∀ row, (change row).key = row.key ∧ (change row).map = row.map)
      (active : (((flows.versions.map change).filter VersionRow.isActive).map
        VersionRow.flowName).Nodup) :
      Activates flows { flows with versions := flows.versions.map change }

theorem activateFlow_activates {flow : String} {version : Int} :
    Activates flows (flows.activateFlow flow version).1 := by
  unfold activateFlow
  split
  · exact .nothing
  split
  · exact .nothing
  split
  · rename_i later updated
    obtain ⟨cleared, first, second⟩ := Runs.bind_eq_ok.mp updated
    rw [updateVersions_flag] at first second
    split at first
    · cases first
      split at second
      · rename_i active
        cases second
        rw [List.map_map] at active ⊢
        exact .flagged (fun row => ⟨(flag_same _).1.trans (flag_same row).1,
          (flag_same _).2.trans (flag_same row).2⟩) active
      · cases second
    · cases first
  · exact .nothing

theorem Sound.activate (sound : flows.Sound) (activates : Activates flows later) :
    later.Sound := by
  cases activates with
  | nothing => exact sound
  | @flagged change same active =>
      have keys : (flows.versions.map change).map VersionRow.key =
          flows.versions.map VersionRow.key := by
        rw [List.map_map]
        exact List.map_congr_left fun row _ => (same row).1
      refine ⟨?_, ?_, keys ▸ sound.unique, active, sound.steps.update same, sound.tasks.update same,
        sound.transitions.update same⟩
      · intro row member
        obtain ⟨old, inside, rfl⟩ := List.mem_map.mp member
        rw [(same old).1, (same old).2]
        exact sound.keyed old inside
      · intro row member
        obtain ⟨old, inside, rfl⟩ := List.mem_map.mp member
        have key := (same old).1
        simp only [VersionRow.key, Prod.mk.injEq] at key
        rw [(same old).2, key.1, key.2]
        exact sound.contract old inside

/-! Maps that jsonb takes for one. -/

section Same

open Json

theorem integer_ok {value : Json} {key : String} {number : Int}
    (read : value.integer key = .ok (some number)) :
    ∃ content, value.text? key = some content ∧ castInt content = some number := by
  unfold integer at read
  split at read
  · cases read
  · rename_i content text
    split at read
    · rename_i parsed cast
      split at read
      · obtain rfl := Option.some.inj (Except.ok.inj read)
        exact ⟨content, text, cast⟩
      · cases read
    · cases read

end Same

/-! Publishing under a key that is taken. -/

theorem Sound.version? (sound : flows.Sound) {row : VersionRow} (member : row ∈ flows.versions) :
    flows.version? (some row.flowName) (some row.version) = some row := by
  have found : (flows.version? (some row.flowName) (some row.version)).isSome := by
    rw [Flows.version?, List.find?_isSome]
    exact ⟨row, member, by simp⟩
  obtain ⟨other, found⟩ := Option.isSome_iff_exists.mp found
  have matched := List.find?_some found
  simp only [Option.some.injEq, decide_eq_true_eq] at matched
  rw [found, Table.key_unique sound.unique (List.mem_of_find?_eq_some found) member
    (Prod.ext matched.1 matched.2)]

theorem flag_activated {flow : String} {version : Int} (row : VersionRow) :
    flag (fun row => row.flowName = flow ∧ row.version = version) true
        (flag (fun row => row.flowName = flow ∧ row.isActive) false row) =
      if row.flowName = flow then { row with isActive := row.version = version } else row := by
  obtain ⟨name, number, active, map⟩ := row
  by_cases named : name = flow <;> by_cases numbered : number = version <;> cases active <;>
    simp [flag, named, numbered]

/-- A published version can be activated, and is then the active one of its flow. -/
theorem Sound.activates (sound : flows.Sound) {row : VersionRow} (member : row ∈ flows.versions) :
    (flows.activateFlow row.flowName row.version).2 = .activated ∧
      ∀ other ∈ (flows.activateFlow row.flowName row.version).1.versions,
        other.flowName = row.flowName → (other.isActive = true ↔ other.version = row.version) := by
  have contract := sound.contract row member
  simp only [breaksContract, Option.any_some, decide_eq_false_iff_not, not_or] at contract
  have named : ¬ (¬ isFlowName row.flowName ∨ row.version < 1) := by
    simpa using contract.2.2
  have apart := (pairwise_active.mp sound.active).and (List.pairwise_map.mp sound.unique)
  have cleared : (((flows.versions.map (flag (fun other => other.flowName = row.flowName ∧
      other.isActive) false)).filter VersionRow.isActive).map VersionRow.flowName).Nodup := by
    rw [pairwise_active, List.pairwise_map]
    refine apart.imp fun {left right} facts leftActive rightActive => ?_
    unfold flag at leftActive rightActive ⊢
    split at leftActive
    · cases leftActive
    split at rightActive
    · cases rightActive
    rw [if_neg (by assumption), if_neg (by assumption)]
    exact facts.1 leftActive rightActive
  have set : ((((flows.versions.map (flag (fun other => other.flowName = row.flowName ∧
      other.isActive) false)).map (flag (fun other => other.flowName = row.flowName ∧
        other.version = row.version) true)).filter VersionRow.isActive).map
          VersionRow.flowName).Nodup := by
    rw [List.map_map, pairwise_active, List.pairwise_map]
    refine apart.imp fun {left right} facts => ?_
    simp only [Function.comp_apply, flag_activated]
    intro leftActive rightActive same
    by_cases leftFlow : left.flowName = row.flowName <;>
      by_cases rightFlow : right.flowName = row.flowName
    · simp only [leftFlow, rightFlow, if_true, decide_eq_true_eq] at leftActive rightActive
      exact facts.2 (Prod.ext (leftFlow.trans rightFlow.symm) (leftActive.trans rightActive.symm))
    · exact rightFlow (by simpa [leftFlow, rightFlow] using same.symm)
    · simp [leftFlow, rightFlow] at same
    · simp only [leftFlow, rightFlow, if_false] at leftActive rightActive same
      exact facts.1 leftActive rightActive same
  have updated : flows.activateFlow row.flowName row.version =
      ({ flows with versions := (flows.versions.map (flag (fun other =>
        other.flowName = row.flowName ∧ other.isActive) false)).map (flag (fun other =>
          other.flowName = row.flowName ∧ other.version = row.version) true) }, .activated) := by
    unfold activateFlow
    rw [if_neg named, sound.version? member]
    simp only [updateVersions_flag, cleared, if_true, bind, Except.bind, set]
  refine ⟨by rw [updated], ?_⟩
  rw [updated]
  intro other inside flow
  rw [List.map_map] at inside
  obtain ⟨old, _, rfl⟩ := List.mem_map.mp inside
  simp only [Function.comp_apply, flag_activated] at flow ⊢
  split at flow
  · rename_i own
    simp [own]
  · rename_i foreign
    exact absurd flow foreign

end Flows

end PaymentWorkflow
