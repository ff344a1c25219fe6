import PaymentWorkflow.PointerProofs
import PaymentWorkflow.ValidatorCore
import Mathlib.Algebra.Order.BigOperators.Group.List
import Mathlib.Algebra.Order.Monoid.Canonical.Basic

/-! For which mappings the worker builds the payload the mapping describes. -/

namespace PaymentWorkflow

open JsonPointer

def sourceOf (processData : Json) (entry : String × String) : Option Json :=
  (nonNull processData).bind fun root => resolve root entry.2

/-- The payload is built, it does not depend on the order of the entries, it holds every source
value at its target, and the constants are as they were. -/
structure Builds (processData : Json) (task : FlowTask) (payload : Json) : Prop where
  built : buildPayload processData task = .ok payload
  ordered : ∀ order, order.Perm task.inputMapping → ∃ other,
    buildPayload processData { task with inputMapping := order } = .ok other ∧
      ∀ key, other.member? key = payload.member? key
  mapped : ∀ entry ∈ task.inputMapping, resolve payload entry.1 = sourceOf processData entry
  constant : ∀ key value, (Json.object task.inputConstants).member? key = some value →
    payload.member? key = some value

/-- Every target is a member of the payload itself and none of the constants, and two targets of
one name have one source. -/
structure FlowTask.Separate (task : FlowTask) : Prop where
  single : ∀ entry ∈ task.inputMapping, ∃ segment, split entry.1 = [segment]
  fresh : ∀ entry ∈ task.inputMapping, ∀ constant ∈ task.inputConstants,
    names entry.1 ≠ [constant.1]
  agree : ∀ left ∈ task.inputMapping, ∀ right ∈ task.inputMapping,
    names left.1 = names right.1 → names left.2 = names right.2

theorem nonNull_some {value given : Json} (present : nonNull value = some given) :
    given = value ∧ nonNull given = some given := by
  cases value <;> cases present <;> exact ⟨rfl, rfl⟩

theorem resolveSegments_present {root : Json} {segments : List (List Char)} {value : Json}
    (found : resolveSegments root segments = some value) : nonNull value = some value := by
  induction segments generalizing root with
  | nil => exact (nonNull_some found).2
  | cons segment rest ih =>
      cases root with
      | object members =>
          obtain ⟨next, _, later⟩ := Option.bind_eq_some_iff.mp found
          exact ih later
      | array items =>
          obtain ⟨index, _, inside⟩ := Option.bind_eq_some_iff.mp found
          obtain ⟨next, _, later⟩ := Option.bind_eq_some_iff.mp inside
          exact ih later
      | _ => cases found

theorem sourceOf_some {processData value : Json} {entry : String × String}
    (found : sourceOf processData entry = some value) :
    nonNull processData = some processData ∧
      resolveSegments processData (split entry.2) = some value ∧ nonNull value = some value := by
  obtain ⟨root, present, resolved⟩ := Option.bind_eq_some_iff.mp found
  obtain ⟨rfl, same⟩ := nonNull_some present
  rw [resolve_eq same] at resolved
  exact ⟨same, resolved, resolveSegments_present resolved⟩

theorem sourceOf_congr {processData : Json} {left right : String × String}
    (same : names left.2 = names right.2) : sourceOf processData left = sourceOf processData right := by
  unfold sourceOf
  cases present : nonNull processData with
  | none => rfl
  | some root => exact resolve_congr (nonNull_some present).2 same

theorem mapInput_ok {processData constants changed : Json} {entry : String × String}
    (mapped : mapInput processData constants entry = .ok changed) : ∃ value,
      sourceOf processData entry = some value ∧ set constants entry.1 value = .ok changed := by
  unfold mapInput at mapped
  split at mapped
  · cases mapped
  rename_i value found
  refine ⟨value, found, ?_⟩
  split at mapped
  · rename_i written
    cases mapped
    exact written
  · cases mapped
  · cases mapped

/-! A mapping of separate members is a map from names to source values. -/

section Separate

variable {processData : Json}

def targetName (entry : String × String) : String := ((names entry.1).head?).getD ""

theorem names_single {entry : String × String} {segment : List Char}
    (single : split entry.1 = [segment]) :
    names entry.1 = [targetName entry] ∧ name segment = targetName entry := by
  simp [targetName, names, single]

theorem mapInput_single {members : List (String × Json)} {entry : String × String} {value : Json}
    {segment : List Char} (single : split entry.1 = [segment])
    (found : sourceOf processData entry = some value) :
    mapInput processData (.object members) entry =
      .ok (.object (setMember (targetName entry) value members)) := by
  unfold mapInput
  rw [show ((nonNull processData).bind fun root => resolve root entry.2) = some value from found]
  simp only [set_single value single, (names_single single).2]

/-- After a run over the entries a target's member is its source value, and a member that is no
target's is as it was. -/
theorem foldlM_separate {entries : List (String × String)} : ∀ {members : List (String × Json)},
    (∀ entry ∈ entries, ∃ segment, split entry.1 = [segment]) →
    (∀ entry ∈ entries, (sourceOf processData entry).isSome = true) →
    (∀ left ∈ entries, ∀ right ∈ entries, targetName left = targetName right →
      sourceOf processData left = sourceOf processData right) →
    ∃ later, entries.foldlM (mapInput processData) (.object members) = .ok (.object later) ∧
      (∀ entry ∈ entries,
        (Json.object later).member? (targetName entry) = sourceOf processData entry) ∧
      ∀ key, (∀ entry ∈ entries, targetName entry ≠ key) →
        (Json.object later).member? key = (Json.object members).member? key := by
  induction entries with
  | nil => exact fun {members} _ _ _ => ⟨members, rfl, nofun, fun _ _ => rfl⟩
  | cons entry rest ih =>
      intro members single resolved agree
      obtain ⟨segment, own⟩ := single entry List.mem_cons_self
      obtain ⟨value, found⟩ := Option.isSome_iff_exists.mp (resolved entry List.mem_cons_self)
      obtain ⟨later, run, targets, others⟩ :=
        @ih (setMember (targetName entry) value members)
          (fun other member => single other (List.mem_cons_of_mem _ member))
          (fun other member => resolved other (List.mem_cons_of_mem _ member))
          (fun left leftMember right rightMember => agree left (List.mem_cons_of_mem _ leftMember)
            right (List.mem_cons_of_mem _ rightMember))
      refine ⟨later, ?_, ?_, ?_⟩
      · rw [List.foldlM_cons, mapInput_single own found]
        exact run
      · intro other member
        rcases List.mem_cons.mp member with rfl | inside
        · by_cases again : ∃ twin ∈ rest, targetName twin = targetName other
          · obtain ⟨twin, twinMember, same⟩ := again
            rw [← same, targets twin twinMember]
            exact agree twin (List.mem_cons_of_mem _ twinMember) other List.mem_cons_self same
          · have alone : ∀ twin ∈ rest, targetName twin ≠ targetName other :=
              fun twin twinMember same => again ⟨twin, twinMember, same⟩
            rw [others _ alone, member?_setMember, if_pos rfl, found]
        · exact targets other inside
      · intro key none
        rw [others key fun other member => none other (List.mem_cons_of_mem _ member),
          member?_setMember, if_neg (Ne.symm (none entry List.mem_cons_self))]

theorem FlowTask.Separate.builds {task : FlowTask} (separate : task.Separate)
    (resolved : ∀ entry ∈ task.inputMapping, (sourceOf processData entry).isSome = true) :
    ∃ payload, Builds processData task payload := by
  have agree : ∀ left ∈ task.inputMapping, ∀ right ∈ task.inputMapping,
      targetName left = targetName right →
        sourceOf processData left = sourceOf processData right := by
    intro left leftMember right rightMember same
    obtain ⟨_, leftSingle⟩ := separate.single left leftMember
    obtain ⟨_, rightSingle⟩ := separate.single right rightMember
    refine sourceOf_congr (separate.agree left leftMember right rightMember ?_)
    rw [(names_single leftSingle).1, (names_single rightSingle).1, same]
  have runs := fun (order : List (String × String)) (same : order.Perm task.inputMapping) =>
    @foldlM_separate processData order task.inputConstants
      (fun entry member => separate.single entry (same.mem_iff.mp member))
      (fun entry member => resolved entry (same.mem_iff.mp member))
      (fun left leftMember right rightMember => agree left (same.mem_iff.mp leftMember) right
        (same.mem_iff.mp rightMember))
  obtain ⟨members, run, targets, others⟩ := runs task.inputMapping (.refl _)
  refine ⟨.object members, run, ?_, ?_, ?_⟩
  · intro order same
    obtain ⟨later, otherRun, otherTargets, otherOthers⟩ := runs order same
    refine ⟨.object later, otherRun, fun key => ?_⟩
    by_cases hit : ∃ entry ∈ task.inputMapping, targetName entry = key
    · obtain ⟨entry, member, rfl⟩ := hit
      rw [targets entry member, otherTargets entry (same.mem_iff.mpr member)]
    · have free : ∀ entry ∈ task.inputMapping, targetName entry ≠ key :=
        fun entry member equal => hit ⟨entry, member, equal⟩
      rw [others key free, otherOthers key fun entry member =>
        free entry (same.mem_iff.mp member)]
  · intro entry member
    obtain ⟨segment, single⟩ := separate.single entry member
    obtain ⟨value, found⟩ := Option.isSome_iff_exists.mp (resolved entry member)
    rw [resolve_first single, (names_single single).2, targets entry member, found]
    exact (sourceOf_some found).2.2
  · intro key value held
    rw [others key fun entry member same => ?_, held]
    obtain ⟨segment, single⟩ := separate.single entry member
    obtain ⟨constant, found, _⟩ := Option.map_eq_some_iff.mp held
    have named := List.find?_some found
    apply separate.fresh entry member constant (List.mem_of_find?_eq_some found)
    rw [(names_single single).1, same, of_decide_eq_true named]

end Separate

/-! Process data in which every path over some keys leads to a value of its own. -/

def probe (keys : List String) (label : String) : Nat → List String → Json
  | 0, path => .array (.text label :: path.map .text)
  | depth + 1, path => .object (keys.map fun key => (key, probe keys label depth (path ++ [key])))

section Probes

variable {keys : List String} {label : String}

theorem probe_present (depth : Nat) (path : List String) :
    nonNull (probe keys label depth path) = some (probe keys label depth path) := by
  cases depth <;> rfl

theorem probe_member {key : String} (known : key ∈ keys) (depth : Nat) (path : List String) :
    (probe keys label (depth + 1) path).member? key =
      some (probe keys label depth (path ++ [key])) := by
  simp only [probe, Json.member?, List.find?_map, Option.map_map]
  have found : (keys.find? ((fun entry : String × Json => decide (entry.1 = key)) ∘
      fun key => (key, probe keys label depth (path ++ [key])))) = some key := by
    cases search : keys.find? ((fun entry : String × Json => decide (entry.1 = key)) ∘
        fun key => (key, probe keys label depth (path ++ [key]))) with
    | none => simpa using List.find?_eq_none.mp search key known
    | some other => simpa using List.find?_some search
  rw [found]
  rfl

theorem resolveSegments_probe {segments : List (List Char)} : ∀ {depth : Nat} {path : List String},
    segments.length ≤ depth → (∀ segment ∈ segments, name segment ∈ keys) →
    resolveSegments (probe keys label depth path) segments =
      some (probe keys label (depth - segments.length) (path ++ segments.map name)) := by
  induction segments with
  | nil =>
      intro depth path _ _
      simp only [resolveSegments, List.length_nil, Nat.sub_zero, List.map_nil, List.append_nil]
      exact probe_present depth path
  | cons segment rest ih =>
      intro depth path bound known
      rw [List.length_cons] at bound
      obtain ⟨depth, rfl⟩ : ∃ earlier, depth = earlier + 1 := ⟨depth - 1, by omega⟩
      have member := @probe_member keys label _ (known segment List.mem_cons_self) depth path
      have later := @ih depth (path ++ [name segment]) (by omega)
        fun other inside => known other (List.mem_cons_of_mem _ inside)
      rw [probe] at member ⊢
      rw [resolveSegments, show (Json.object _).member? (String.ofList (unescape segment)) = _ from
        member, Option.bind_some, later]
      simp

theorem probe_inj {other : String} (some : keys ≠ []) : ∀ {depth later : Nat}
    {left right : List String}, probe keys label depth left = probe keys other later right →
      label = other ∧ left = right := by
  obtain ⟨key, rest, rfl⟩ := List.exists_cons_of_ne_nil some
  intro depth
  induction depth with
  | zero =>
      intro later left right same
      cases later with
      | zero =>
          simp only [probe, Json.array.injEq, List.cons.injEq, Json.text.injEq] at same
          exact ⟨same.1, List.map_injective_iff.mpr (fun _ _ => Json.text.inj) same.2⟩
      | succ later => cases same
  | succ depth ih =>
      intro later left right same
      cases later with
      | zero => cases same
      | succ later =>
          simp only [probe, Json.object.injEq, List.map_cons, List.cons.injEq, Prod.mk.injEq,
            true_and] at same
          obtain ⟨labels, paths⟩ := ih same.1
          exact ⟨labels, List.append_cancel_right paths⟩

end Probes

namespace FlowTask

variable {task : FlowTask}

def probeKeys (task : FlowTask) : List String :=
  "" :: task.inputMapping.flatMap fun entry => names entry.2

def probeDepth (task : FlowTask) : Nat :=
  (task.inputMapping.map fun entry => (names entry.2).length).sum

def probeData (task : FlowTask) (label : String) : Json :=
  probe task.probeKeys label task.probeDepth []

theorem sourceOf_probe (label : String) {entry : String × String}
    (member : entry ∈ task.inputMapping) :
    sourceOf (task.probeData label) entry =
      some (probe task.probeKeys label (task.probeDepth - (split entry.2).length)
        (names entry.2)) := by
  have bound : (split entry.2).length ≤ task.probeDepth := by
    have listed : (names entry.2).length ∈
        task.inputMapping.map fun entry => (names entry.2).length :=
      List.mem_map_of_mem member
    have fits := List.le_sum_of_mem listed
    rwa [names, List.length_map] at fits
  have known : ∀ segment ∈ split entry.2, name segment ∈ task.probeKeys := by
    intro segment inside
    refine List.mem_cons_of_mem _ (List.mem_flatMap.mpr ⟨entry, member, ?_⟩)
    exact List.mem_map_of_mem inside
  have present : nonNull (task.probeData label) = some (task.probeData label) :=
    probe_present _ _
  rw [sourceOf, present, Option.bind_some, resolve_eq present, probeData,
    resolveSegments_probe bound known]
  rfl

theorem sourceOf_probe_inj {label other : String} {left right : String × String}
    (leftMember : left ∈ task.inputMapping) (rightMember : right ∈ task.inputMapping)
    (same : sourceOf (task.probeData label) left = sourceOf (task.probeData other) right) :
    label = other ∧ names left.2 = names right.2 := by
  rw [sourceOf_probe label leftMember, sourceOf_probe other rightMember] at same
  exact probe_inj (List.cons_ne_nil _ _) (Option.some.inj same)

theorem foldlM_each {processData : Json} {entries : List (String × String)} :
    ∀ {constants payload : Json}, entries.foldlM (mapInput processData) constants = .ok payload →
      ∀ entry ∈ entries, ∃ before after, mapInput processData before entry = .ok after := by
  induction entries with
  | nil => exact fun _ _ member => nomatch member
  | cons first rest ih =>
      intro constants payload run entry member
      rw [List.foldlM_cons] at run
      obtain ⟨between, own, later⟩ := Runs.bind_eq_ok.mp run
      rcases List.mem_cons.mp member with rfl | inside
      · exact ⟨constants, between, own⟩
      · exact ih later entry inside

section Necessary

variable (always : ∀ processData,
  (∀ entry ∈ task.inputMapping, (sourceOf processData entry).isSome = true) →
    ∃ payload, Builds processData task payload)

include always

theorem probe_builds (label : String) : ∃ payload, Builds (task.probeData label) task payload :=
  always _ fun _ member => by rw [sourceOf_probe label member]; rfl

theorem target_cons {entry : String × String} (member : entry ∈ task.inputMapping) :
    ∃ first rest, split entry.1 = first :: rest := by
  obtain ⟨payload, builds⟩ := probe_builds always ""
  obtain ⟨before, after, mapped⟩ := foldlM_each builds.built entry member
  obtain ⟨value, _, written⟩ := mapInput_ok mapped
  exact List.exists_cons_of_ne_nil (set_ok written).2

/-- A target inside a constant holds one value, whatever the process data. -/
theorem target_fresh {entry : String × String} (member : entry ∈ task.inputMapping)
    {first : List Char} {rest : List (List Char)} (segments : split entry.1 = first :: rest) :
    (Json.object task.inputConstants).member? (name first) = none := by
  rw [Option.eq_none_iff_forall_ne_some]
  intro value held
  have fixed : ∀ label, sourceOf (task.probeData label) entry = resolveSegments value rest := by
    intro label
    obtain ⟨payload, builds⟩ := probe_builds always label
    have kept := builds.constant _ _ held
    rw [← builds.mapped entry member]
    cases payload with
    | object members => rw [resolve_first segments, kept, Option.bind_some]
    | _ => cases kept
  have same := (sourceOf_probe_inj member member ((fixed "").trans (fixed "other").symm)).1
  revert same
  decide

theorem target_single {entry : String × String} (member : entry ∈ task.inputMapping) :
    ∃ segment, split entry.1 = [segment] := by
  obtain ⟨first, rest, segments⟩ := target_cons always member
  have missing := target_fresh always member segments
  cases rest with
  | nil => exact ⟨first, segments⟩
  | cons second rest =>
      obtain ⟨payload, builds⟩ := probe_builds always ""
      obtain ⟨other, run, _⟩ := builds.ordered (entry :: task.inputMapping.erase entry)
        (List.perm_cons_erase member).symm
      rw [buildPayload, List.foldlM_cons] at run
      obtain ⟨between, mapped, _⟩ := Runs.bind_eq_ok.mp run
      obtain ⟨value, _, written⟩ := mapInput_ok mapped
      have refused := @setSegments_missing task.inputConstants first second rest value missing
      rw [← segments, (set_ok written).1] at refused
      cases refused

theorem separate_of_builds : task.Separate where
  single := fun _ member => target_single always member
  fresh := by
    intro entry member constant inside same
    obtain ⟨segment, single⟩ := target_single always member
    have missing := target_fresh always member single
    rw [(names_single single).2] at missing
    rw [(names_single single).1, List.cons.injEq] at same
    simp only [Json.member?, Option.map_eq_none_iff, List.find?_eq_none] at missing
    exact missing constant inside (decide_eq_true same.1.symm)
  agree := by
    intro left leftMember right rightMember same
    obtain ⟨payload, builds⟩ := probe_builds always ""
    obtain ⟨_, leftSingle⟩ := target_single always leftMember
    obtain ⟨_, rightSingle⟩ := target_single always rightMember
    have equal : resolve payload left.1 = resolve payload right.1 := by
      rw [resolve_split (by simp [leftSingle]), resolve_split (by simp [rightSingle])]
      exact resolveSegments_congr payload split_segments split_segments same
    rw [builds.mapped left leftMember, builds.mapped right rightMember] at equal
    exact (sourceOf_probe_inj leftMember rightMember equal).2

end Necessary

end FlowTask

theorem buildPayload_exact (task : FlowTask) :
    (∀ processData,
      (∀ entry ∈ task.inputMapping, (sourceOf processData entry).isSome = true) →
        ∃ payload, Builds processData task payload) ↔ task.Separate :=
  ⟨FlowTask.separate_of_builds, fun separate _ resolved => separate.builds resolved⟩

def escapedTask : FlowTask where
  service := "postgres"
  module := "clients"
  action := "check"
  actionVersion := 1
  requiredPolicy := ["clients:read"]
  timeoutMs := 1000
  retry := { maxAttempts := some 1, delaysMs := [] }
  inputMapping := [("/a~0b", "/source")]
  inputConstants := [("a~b", .bool true)]

theorem escapedTask_overwrites : ¬ ∀ (task : FlowTask) (processData : Json),
    task.matchesSchema = true → validateMapping task = .ok () →
      (∀ entry ∈ task.inputMapping, (sourceOf processData entry).isSome = true) →
        ∃ payload, Builds processData task payload := by
  intro always
  obtain ⟨payload, builds⟩ := always escapedTask (.object [("source", .bool false)])
    (by decide) (by decide) (by decide)
  have written : buildPayload (.object [("source", .bool false)]) escapedTask =
      .ok (.object [("a~b", .bool false)]) := by decide
  have same : payload = .object [("a~b", .bool false)] :=
    Except.ok.inj (builds.built.symm.trans written)
  have kept := builds.constant "a~b" (.bool true) (by decide)
  rw [same] at kept
  exact absurd kept (by decide)

end PaymentWorkflow
