import PaymentWorkflow.CatalogProofs

/-!
The default version of a route over every sequence of publications, activations and
disablings, and the one publication that leaves a route without it.
-/

namespace PaymentWorkflow

namespace Catalog

def defaults (catalog : Catalog) (module action : String) : List ActionManifest :=
  catalog.filter fun row => row.onRoute module action && row.isDefault

def Routed (catalog : Catalog) : Prop :=
  ∀ row ∈ catalog, row.enabled = true →
    ∃ chosen, catalog.defaults row.module row.action = [chosen] ∧ chosen.enabled = true

/-- What the primary key, `ux_action_catalog_default` and `chk_default_implies_enabled` keep. -/
structure Sound (catalog : Catalog) : Prop where
  keys : catalog.keys.Nodup
  single : ∀ module action, (catalog.defaults module action).length ≤ 1
  enabled : ∀ row ∈ catalog, row.isDefault = true → row.enabled = true

theorem mem_defaults {catalog : Catalog} {module action : String} {row : ActionManifest} :
    row ∈ catalog.defaults module action ↔
      row ∈ catalog ∧ row.module = module ∧ row.action = action ∧ row.isDefault = true := by
  simp [defaults, ActionManifest.onRoute, and_assoc]

theorem Sound.chosen {catalog : Catalog} (sound : Sound catalog) {module action : String}
    (present : catalog.defaults module action ≠ []) :
    ∃ row, catalog.defaults module action = [row] ∧ row.enabled = true := by
  have one : (catalog.defaults module action).length = 1 := by
    have some_ := List.length_pos_iff.mpr present
    have most := sound.single module action
    omega
  obtain ⟨row, only⟩ := List.length_eq_one_iff.mp one
  have member : row ∈ catalog.defaults module action := by rw [only]; exact List.mem_cons_self
  obtain ⟨inside, _, _, isDefault⟩ := mem_defaults.mp member
  exact ⟨row, only, sound.enabled row inside isDefault⟩

theorem Sound.routed_iff {catalog : Catalog} (sound : Sound catalog) :
    catalog.Routed ↔
      ∀ row ∈ catalog, row.enabled = true → catalog.defaults row.module row.action ≠ [] := by
  constructor
  · intro routed row member enabled missing
    obtain ⟨chosen, only, _⟩ := routed row member enabled
    rw [missing] at only
    cases only
  · intro present row member enabled
    exact sound.chosen (present row member enabled)

theorem default?_eq_none {catalog : Catalog} {module action : String} :
    catalog.default? module action = none ↔ catalog.defaults module action = [] := by
  simp [default?, defaults]

theorem isVersion_eq_key {row target : ActionManifest} :
    row.isVersion target.module target.action target.version = decide (row.key = target.key) := by
  simp [ActionManifest.isVersion, ActionManifest.onRoute, ActionManifest.key, and_assoc]

theorem find_some {catalog : Catalog} {module action : String} {version : Int}
    {row : ActionManifest} (found : catalog.find module action version = some row) :
    row ∈ catalog ∧ row.module = module ∧ row.action = action ∧ row.version = version := by
  have facts := List.find?_some found
  simp only [ActionManifest.isVersion, ActionManifest.onRoute, Bool.decide_and, decide_eq_true_eq,
    Bool.and_eq_true] at facts
  exact ⟨List.mem_of_find?_eq_some found, facts.1.1, facts.1.2, facts.2⟩

/-! Making a version the default of its route. -/

theorem defaults_makeDefault {catalog : Catalog} (unique : catalog.keys.Nodup)
    {row : ActionManifest} (member : row ∈ catalog) :
    ((catalog.makeDefault row.module row.action row.version).defaults
      row.module row.action).length = 1 := by
  let cleared := Table.update (fun other => other.onRoute row.module row.action)
    (fun other => { other with isDefault := false }) catalog
  have none_ : cleared.filter
      (fun other => other.onRoute row.module row.action && other.isDefault) = [] := by
    rw [List.filter_eq_nil_iff]
    intro other inside
    obtain ⟨old, _, rfl⟩ := Table.mem_update.mp inside
    by_cases same : old.onRoute row.module row.action = true <;> simp [same]
  have keys : (cleared.map ActionManifest.key).Nodup :=
    (Kept.update unique (fun other => other.onRoute row.module row.action)
      (fun other => { other with isDefault := false }) fun _ => rfl).unique
  have target : { row with isDefault := false } ∈ cleared := by
    refine Table.mem_update.mpr ⟨row, member, ?_⟩
    simp [ActionManifest.onRoute]
  have entered := @Table.length_filter_update_enter _ _ _ ActionManifest.key
    (fun other => other.onRoute row.module row.action && other.isDefault)
    (fun other => { other with enabled := true, isDefault := true }) _ _ keys target
    (by simp) (by simp [ActionManifest.onRoute])
  rw [none_] at entered
  have matched : (fun other : ActionManifest =>
      other.isVersion row.module row.action row.version) = fun other =>
        decide (other.key = { row with isDefault := false }.key) := by
    funext other
    exact isVersion_eq_key
  rw [defaults, makeDefault, matched]
  exact entered

theorem defaults_makeDefault_other {catalog : Catalog} {module action other route : String}
    (apart : (other, route) ≠ (module, action)) (version : Int) :
    (catalog.makeDefault module action version).defaults other route =
      catalog.defaults other route := by
  have away : ∀ row : ActionManifest, row.onRoute module action = true →
      (row.onRoute other route && row.isDefault) = false := by
    intro row here
    simp only [ActionManifest.onRoute, decide_eq_true_eq] at here
    simp only [ActionManifest.onRoute, here.1, here.2, Bool.and_eq_false_iff, decide_eq_false_iff_not]
    exact .inl fun same => apart (by rw [same.1, same.2])
  have version_ : ∀ row : ActionManifest, row.isVersion module action version = true →
      row.onRoute module action = true := by
    intro row here
    simp only [ActionManifest.isVersion, decide_eq_true_eq] at here
    exact here.1
  rw [defaults, makeDefault, Table.filter_update_away, Table.filter_update_away]
  · rfl
  · exact fun row _ here => away row here
  · exact fun row _ here => away { row with isDefault := false } here
  · exact fun row _ here => away row (version_ row here)
  · exact fun row _ here =>
      away { row with enabled := true, isDefault := true } (version_ row here)

theorem onRoute_of_isVersion {row : ActionManifest} {module action : String} {version : Int}
    (here : row.isVersion module action version = true) : row.onRoute module action = true := by
  simp only [ActionManifest.isVersion, decide_eq_true_eq] at here
  exact here.1

theorem makeDefault_enabled {catalog : Catalog} (module action : String) (version : Int)
    (before : ∀ row ∈ catalog, row.isDefault = true → row.enabled = true) :
    ∀ row ∈ catalog.makeDefault module action version,
      row.isDefault = true → row.enabled = true := by
  apply Table.forall_update
  · apply Table.forall_update before
    intro row _ _ isDefault
    cases isDefault
  · intro row _ _ _
    rfl

theorem mem_makeDefault {catalog : Catalog} {module action : String} {version : Int} :
    ∀ row ∈ catalog.makeDefault module action version,
      row ∈ catalog ∨ row.onRoute module action = true := by
  apply Table.forall_update
  · apply Table.forall_update
    · intro row member
      exact .inl member
    · intro row here _
      exact .inr here
  · intro row here _
    exact .inr (onRoute_of_isVersion here)

theorem Sound.makeDefault {catalog : Catalog} (sound : Sound catalog) {row : ActionManifest}
    (member : row ∈ catalog) :
    Sound (catalog.makeDefault row.module row.action row.version) where
  keys := (Kept.makeDefault sound.keys row.module row.action row.version).unique
  single := by
    intro module action
    by_cases same : (module, action) = (row.module, row.action)
    · cases same
      exact Nat.le_of_eq (defaults_makeDefault sound.keys member)
    · rw [defaults_makeDefault_other same]
      exact sound.single module action
  enabled := makeDefault_enabled row.module row.action row.version sound.enabled

theorem Sound.routed_makeDefault {catalog : Catalog} (sound : Sound catalog)
    (routed : catalog.Routed) {row : ActionManifest} (member : row ∈ catalog) :
    (catalog.makeDefault row.module row.action row.version).Routed := by
  rw [(sound.makeDefault member).routed_iff]
  intro other inside enabled
  by_cases same : (other.module, other.action) = (row.module, row.action)
  · simp only [Prod.mk.injEq] at same
    rw [same.1, same.2]
    have one := defaults_makeDefault sound.keys member
    exact List.length_pos_iff.mp (by omega)
  · rw [defaults_makeDefault_other same]
    rcases mem_makeDefault other inside with before | here
    · exact sound.routed_iff.mp routed other before enabled
    · simp only [ActionManifest.onRoute, decide_eq_true_eq] at here
      exact absurd (by rw [here.1, here.2]) same

/-! Disabling a version that is not the default of its route. -/

theorem defaults_disable {catalog : Catalog} {module action : String} {version : Int}
    (regular : ∀ row ∈ catalog, row.isVersion module action version = true → row.isDefault = false)
    (other route : String) :
    Catalog.defaults (Table.update (fun row => row.isVersion module action version)
      (fun row => { row with enabled := false }) catalog) other route =
      catalog.defaults other route := by
  apply Table.filter_update_away
  · intro row member here
    rw [regular row member here, Bool.and_false]
  · intro row member here
    simp [regular row member here]

theorem disable_ok {catalog later : Catalog} {module action : String} {version : Int}
    {reply : CatalogReply} (returned : catalog.disable module action version = .ok (later, reply)) :
    (∀ row ∈ catalog, row.isVersion module action version = true → row.isDefault = false) ∧
      later = Table.update (fun row => row.isVersion module action version)
        (fun row => { row with enabled := false }) catalog := by
  unfold Catalog.disable at returned
  split at returned
  · cases returned
  · rename_i clear
    cases returned
    refine ⟨?_, rfl⟩
    intro row member here
    simp only [List.any_eq_true, Bool.and_eq_true, not_exists, not_and, Bool.not_eq_true] at clear
    exact clear row member here

theorem Sound.disable {catalog later : Catalog} {module action : String} {version : Int}
    {reply : CatalogReply} (sound : Sound catalog)
    (returned : catalog.disable module action version = .ok (later, reply)) : Sound later := by
  have unique := (Kept.disable sound.keys returned).unique
  obtain ⟨regular, rfl⟩ := disable_ok returned
  refine ⟨unique, ?_, ?_⟩
  · intro other route
    rw [defaults_disable regular]
    exact sound.single other route
  · intro row member isDefault
    obtain ⟨old, inside, rfl⟩ := Table.mem_update.mp member
    by_cases here : old.isVersion module action version = true
    · simp only [here, if_true] at isDefault
      rw [regular old inside here] at isDefault
      cases isDefault
    · simp only [here, Bool.false_eq_true, if_false] at isDefault ⊢
      exact sound.enabled old inside isDefault

theorem Sound.routed_disable {catalog later : Catalog} {module action : String} {version : Int}
    {reply : CatalogReply} (sound : Sound catalog) (routed : catalog.Routed)
    (returned : catalog.disable module action version = .ok (later, reply)) : later.Routed := by
  rw [(sound.disable returned).routed_iff]
  obtain ⟨regular, rfl⟩ := disable_ok returned
  intro row member enabled
  rw [defaults_disable regular]
  obtain ⟨old, inside, rfl⟩ := Table.mem_update.mp member
  by_cases here : old.isVersion module action version = true
  · simp [here] at enabled
  · simp only [here, Bool.false_eq_true, if_false] at enabled ⊢
    exact sound.routed_iff.mp routed old inside enabled

/-! Publishing a version. -/

theorem defaults_publish (catalog : Catalog) (row : ActionManifest) (module action : String) :
    Catalog.defaults (catalog ++ [row]) module action =
      catalog.defaults module action ++
        if row.onRoute module action && row.isDefault then [row] else [] := by
  rw [defaults, List.filter_append, List.filter_singleton, Bool.cond_eq_ite]
  rfl

theorem Sound.publish {catalog : Catalog} {row : ActionManifest} (sound : Sound catalog)
    (unique : Catalog.keys (catalog ++ [row]) |>.Nodup)
    (first : row.isDefault = true → catalog.defaults row.module row.action = [])
    (checked : row.isDefault = true → row.enabled = true) : Sound (catalog ++ [row]) where
  keys := unique
  single := by
    intro module action
    rw [defaults_publish]
    split
    · rename_i here
      simp only [ActionManifest.onRoute, Bool.and_eq_true, decide_eq_true_eq] at here
      obtain ⟨⟨rfl, rfl⟩, isDefault⟩ := here
      rw [first isDefault]
      exact Nat.le_refl 1
    · rw [List.append_nil]
      exact sound.single module action
  enabled := by
    intro other member isDefault
    rcases List.mem_append.mp member with before | new
    · exact sound.enabled other before isDefault
    · cases List.mem_singleton.mp new
      exact checked isDefault

theorem routed_publish_iff {catalog : Catalog} {row : ActionManifest}
    (sound : Sound (catalog ++ [row]))
    (routed : ∀ other ∈ catalog, other.enabled = true →
      catalog.defaults other.module other.action ≠ []) :
    Catalog.Routed (catalog ++ [row]) ↔
      (row.enabled = true → row.isDefault = true ∨ catalog.defaults row.module row.action ≠ []) := by
  rw [sound.routed_iff]
  constructor
  · intro present enabled
    have found := present row (by simp) enabled
    rw [defaults_publish] at found
    by_cases isDefault : row.isDefault = true
    · exact .inl isDefault
    · rw [Bool.not_eq_true] at isDefault
      rw [isDefault, Bool.and_false] at found
      simp only [Bool.false_eq_true, if_false, List.append_nil] at found
      exact .inr found
  · intro chosen other member enabled missing
    rw [defaults_publish, List.append_eq_nil_iff] at missing
    rcases List.mem_append.mp member with before | new
    · exact routed other before enabled missing.1
    · cases List.mem_singleton.mp new
      rcases chosen enabled with isDefault | found
      · simp [ActionManifest.onRoute, isDefault] at missing
      · exact found missing.1

end Catalog

theorem ManifestDocument.row?_some {document : ManifestDocument} {row : ActionManifest}
    (formed : document.row? = some row) :
    document.module = some row.module ∧ document.action = some row.action ∧
      document.version = some row.version ∧ (row.isDefault = true → row.enabled = true) := by
  obtain ⟨columns, checked⟩ := Option.filter_eq_some_iff.mp formed
  obtain ⟨module, action, version⟩ := columns?_names columns
  refine ⟨module, action, version, fun isDefault => ?_⟩
  simpa [isDefault] using checked

def ManifestDocument.inserted? (registered : String → String → Bool) (catalog : Catalog)
    (document : ManifestDocument) : Option ActionManifest :=
  document.row?.filter fun row =>
    !document.refused && (catalog.find row.module row.action row.version).isNone &&
      registered row.targetSchema row.targetFunction &&
      !(row.isDefault && (catalog.default? row.module row.action).isSome)

theorem Catalog.any_default (catalog : Catalog) (module action : String) :
    (catalog.any fun other => other.onRoute module action && other.isDefault) =
      (catalog.default? module action).isSome := by
  rw [Catalog.default?, List.isSome_find?]

theorem ManifestDocument.committed_publish (registered : String → String → Bool)
    (catalog : Catalog) (document : ManifestDocument) :
    (CatalogCall.publish document).committed registered catalog =
      catalog ++ (document.inserted? registered catalog).toList := by
  simp only [CatalogCall.committed, CatalogCall.run, publishAction, ManifestDocument.inserted?]
  rcases Option.eq_none_or_eq_some document.row? with formed | ⟨row, formed⟩
  · simp only [formed, Option.filter_none, Option.toList_none, List.append_nil]
    split
    · rename_i later reply returned
      split at returned
      · cases returned
      · split at returned
        · split at returned
          · split at returned
            · cases returned
              rfl
            · cases returned
          · cases returned
        · cases returned
    · rfl
  · obtain ⟨hasModule, hasAction, hasVersion, _⟩ := ManifestDocument.row?_some formed
    simp only [formed, hasModule, hasAction, hasVersion]
    simp only [Catalog.any_default, Option.filter_some]
    by_cases refused : document.refused = true
    · simp [refused]
    · rcases Option.eq_none_or_eq_some (catalog.find row.module row.action row.version) with
        found | ⟨existing, found⟩
      · simp only [found]
        by_cases target : registered row.targetSchema row.targetFunction = true
        · by_cases second : (row.isDefault &&
              (catalog.default? row.module row.action).isSome) = true
          · simp [refused, target, second]
          · simp [refused, target, second]
        · simp [refused, target]
      · simp only [found]
        by_cases same : document.equals existing = true <;> simp [refused, same]

/-- A publication that brings a route its first enabled version, but not as its default. -/
def CatalogCall.strands (registered : String → String → Bool) (catalog : Catalog) :
    CatalogCall → Bool
  | .publish document =>
      (document.inserted? registered catalog).any fun row =>
        row.enabled && !row.isDefault && (catalog.default? row.module row.action).isNone
  | .activate .. => false
  | .disable .. => false

namespace Catalog

theorem Sound.publication {registered : String → String → Bool} {catalog : Catalog}
    {document : ManifestDocument} {row : ActionManifest} (sound : Sound catalog)
    (inserted : document.inserted? registered catalog = some row) :
    Sound (catalog ++ [row]) := by
  have unique := ((CatalogCall.publish document).kept registered sound.keys).unique
  rw [document.committed_publish, inserted] at unique
  obtain ⟨formed, checks⟩ := Option.filter_eq_some_iff.mp inserted
  simp only [Bool.and_eq_true, Bool.not_eq_true', Bool.and_eq_false_iff] at checks
  obtain ⟨_, first⟩ := checks
  refine sound.publish unique ?_ (ManifestDocument.row?_some formed).2.2.2
  intro isDefault
  rw [isDefault] at first
  simpa [default?_eq_none] using first

theorem Sound.activation {catalog later : Catalog} {module action : String} {version : Int}
    {reply : CatalogReply} (sound : Sound catalog)
    (returned : activateAction catalog module action version = .ok (later, reply)) :
    Sound later ∧ (catalog.Routed → later.Routed) := by
  unfold activateAction at returned
  split at returned
  · cases returned
  · split at returned
    · cases returned
    · rename_i present
      cases returned
      obtain ⟨row, found⟩ := Option.ne_none_iff_exists'.mp (by simpa using present)
      obtain ⟨member, rfl, rfl, rfl⟩ := find_some found
      exact ⟨sound.makeDefault member, fun routed => sound.routed_makeDefault routed member⟩

theorem Sound.disabling {catalog later : Catalog} {module action : String} {version : Int}
    {replacement : Option Int} {reply : CatalogReply} (sound : Sound catalog)
    (returned : disableAction catalog module action version replacement = .ok (later, reply)) :
    Sound later ∧ (catalog.Routed → later.Routed) := by
  unfold disableAction at returned
  split at returned
  · cases returned
  · split at returned
    · cases returned
    · dsimp only at returned
      split at returned
      · exact ⟨sound.disable returned, fun routed => sound.routed_disable routed returned⟩
      · split at returned
        · cases returned
        · rename_i refused
          simp only [not_or, Decidable.not_not, List.any_eq_true, Bool.and_eq_true] at refused
          obtain ⟨_, row, member, here, _⟩ := refused
          simp only [ActionManifest.isVersion, ActionManifest.onRoute, decide_eq_true_eq] at here
          obtain ⟨⟨rfl, rfl⟩, rfl⟩ := here
          have raised := sound.makeDefault member
          refine ⟨raised.disable returned, fun routed => ?_⟩
          exact raised.routed_disable (sound.routed_makeDefault routed member) returned

theorem Sound.committed (registered : String → String → Bool) {catalog : Catalog}
    (sound : Sound catalog) (call : CatalogCall) : Sound (call.committed registered catalog) := by
  cases call with
  | publish document =>
      rw [document.committed_publish]
      cases inserted : document.inserted? registered catalog with
      | none => simpa using sound
      | some row => exact sound.publication inserted
  | activate module action version =>
      unfold CatalogCall.committed
      split
      · rename_i later reply returned
        exact (sound.activation returned).1
      · exact sound
  | disable module action version replacement =>
      unfold CatalogCall.committed
      split
      · rename_i later reply returned
        exact (sound.disabling returned).1
      · exact sound

theorem Sound.routed_committed_iff (registered : String → String → Bool) {catalog : Catalog}
    (sound : Sound catalog) (routed : catalog.Routed) (call : CatalogCall) :
    ¬ call.strands registered catalog ↔ Routed (call.committed registered catalog) := by
  cases call with
  | publish document =>
      rw [document.committed_publish, CatalogCall.strands]
      cases inserted : document.inserted? registered catalog with
      | none => simpa using routed
      | some row =>
          have published := routed_publish_iff (sound.publication inserted)
            (sound.routed_iff.mp routed)
          rw [Option.toList_some, published, Option.any_some, Ne, ← default?_eq_none]
          cases row.enabled <;> cases row.isDefault <;> simp
  | activate module action version =>
      refine iff_of_true (by simp [CatalogCall.strands]) ?_
      unfold CatalogCall.committed
      split
      · rename_i later reply returned
        exact (sound.activation returned).2 routed
      · exact routed
  | disable module action version replacement =>
      refine iff_of_true (by simp [CatalogCall.strands]) ?_
      unfold CatalogCall.committed
      split
      · rename_i later reply returned
        exact (sound.disabling returned).2 routed
      · exact routed

theorem kept_run (registered : String → String → Bool) {catalog : Catalog}
    (unique : catalog.keys.Nodup) (calls : List CatalogCall) :
    Kept catalog (Runs.run (CatalogCall.committed registered) catalog calls) :=
  Runs.run_invariant (Kept catalog)
    (fun _ call before => before.trans (call.kept registered before.unique)) calls catalog
    (Kept.refl unique)

/-- Every route keeps its one enabled default version, and every published version its
contract, exactly while no publication strands a route. -/
theorem routed_iff_none_stranded (registered : String → String → Bool) (start : Catalog)
    (calls : List CatalogCall) (sound : Sound start) (routed : start.Routed) :
    ((∀ done, done <+: calls →
        Routed (Runs.run (CatalogCall.committed registered) start done)) ∧
      ∀ done later, done ++ later <+: calls →
        Kept (Runs.run (CatalogCall.committed registered) start done)
          (Runs.run (CatalogCall.committed registered) start (done ++ later))) ↔
      Runs.Guarded (CatalogCall.committed registered)
        (fun catalog call => ¬ call.strands registered catalog) start calls := by
  have kept : ∀ done later, done ++ later <+: calls →
      Kept (Runs.run (CatalogCall.committed registered) start done)
        (Runs.run (CatalogCall.committed registered) start (done ++ later)) := by
    intro done later _
    rw [Runs.run_append]
    exact kept_run registered (kept_run registered sound.keys done).unique later
  rw [and_iff_left kept]
  exact Runs.guarded_iff_safe Sound Routed (fun _ call before => before.committed registered call)
    (fun _ call before safely => before.routed_committed_iff registered safely call)
    calls start sound routed

end Catalog

def Seed.offered (isDefault : Bool) : ManifestDocument where
  contractVersion := some "course-1"
  module := some "pubtest"
  action := some "lifecycle"
  version := some 1
  httpMethod := some "POST"
  targetSchema := some "payment"
  targetFunction := some "request_v1"
  requestSchema := some (.object [])
  responseSchema := some (.object [])
  outcomes := some (.array [.text "created"])
  requiredPolicy := some (.array [])
  idempotencyMode := some "none"
  idempotencyScope := some "none"
  timeoutMs := some 5000
  enabled := some true
  isDefault := some isDefault

theorem Catalog.sound_nil : Catalog.Sound [] :=
  ⟨List.nodup_nil, fun _ _ => Nat.zero_le 1, fun _ member => nomatch member⟩

theorem Catalog.routed_nil : Catalog.Routed [] := fun _ member => nomatch member

def Seed.routeLife : List CatalogCall :=
  [.publish (Seed.offered true), .publish { Seed.offered false with version := some 2 },
    .activate "pubtest" "lifecycle" 2, .disable "pubtest" "lifecycle" 1 none,
    .publish { Seed.offered false with version := some 3 },
    .disable "pubtest" "lifecycle" 2 (some 3)]

theorem Catalog.routed_at_first_default :
    ((∀ done, done <+: Seed.routeLife →
        Catalog.Routed (Runs.run (CatalogCall.committed fun _ _ => true) [] done)) ∧
      ∀ done later, done ++ later <+: Seed.routeLife →
        Catalog.Kept (Runs.run (CatalogCall.committed fun _ _ => true) [] done)
          (Runs.run (CatalogCall.committed fun _ _ => true) [] (done ++ later))) :=
  (Catalog.routed_iff_none_stranded (fun _ _ => true) [] Seed.routeLife Catalog.sound_nil
    Catalog.routed_nil).mpr (by decide +kernel)

/-- `publish_action` accepts an enabled version that is not the default of a new route. -/
theorem Catalog.first_version_stranded :
    ¬ ∀ (registered : String → String → Bool) (calls : List CatalogCall),
      Catalog.Routed (Runs.run (CatalogCall.committed registered) [] calls) := by
  intro always
  have routed := always (fun _ _ => true) [.publish (Seed.offered false)]
  exact (Catalog.sound_nil.routed_committed_iff (fun _ _ => true) Catalog.routed_nil
    (.publish (Seed.offered false))).mpr routed (by decide +kernel)

end PaymentWorkflow
