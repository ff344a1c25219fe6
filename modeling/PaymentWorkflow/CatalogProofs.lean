import PaymentWorkflow.CatalogCore

/-! What no call of the publisher changes: the key and the contract of a published version. -/

namespace PaymentWorkflow

theorem ManifestDocument.columns?_names {document : ManifestDocument} {row : ActionManifest}
    (formed : document.columns? = some row) :
    document.module = some row.module ∧ document.action = some row.action ∧
      document.version = some row.version := by
  unfold columns? at formed
  obtain ⟨_, module, formed⟩ := Option.bind_eq_some_iff.mp formed
  obtain ⟨_, action, formed⟩ := Option.bind_eq_some_iff.mp formed
  obtain ⟨_, version, formed⟩ := Option.bind_eq_some_iff.mp formed
  iterate 13 obtain ⟨_, _, formed⟩ := Option.bind_eq_some_iff.mp formed
  cases formed
  exact ⟨module, action, version⟩

theorem ManifestDocument.row?_columns {document : ManifestDocument} {row : ActionManifest}
    (formed : document.row? = some row) : document.columns? = some row :=
  (Option.filter_eq_some_iff.mp formed).1

theorem ManifestDocument.row?_key {document : ManifestDocument} {row : ActionManifest}
    {module action : String} {version : Int} (hasModule : document.module = some module)
    (hasAction : document.action = some action) (hasVersion : document.version = some version)
    (formed : document.row? = some row) : row.key = (module, action, version) := by
  obtain ⟨first, second, third⟩ := columns?_names (row?_columns formed)
  rw [hasModule] at first
  rw [hasAction] at second
  rw [hasVersion] at third
  cases first
  cases second
  cases third
  rfl

namespace Catalog

def keys (catalog : Catalog) : List (String × String × Int) := catalog.map ActionManifest.key

structure Kept (catalog later : Catalog) : Prop where
  rows : ∀ row ∈ catalog, ∃ after ∈ later, after.contract = row.contract
  unique : later.keys.Nodup

theorem Kept.trans {first second third : Catalog} (left : Kept first second)
    (right : Kept second third) : Kept first third where
  rows := by
    intro row member
    obtain ⟨between, inside, same⟩ := left.rows row member
    obtain ⟨after, present, equal⟩ := right.rows between inside
    exact ⟨after, present, equal.trans same⟩
  unique := right.unique

theorem Kept.refl {catalog : Catalog} (unique : catalog.keys.Nodup) : Kept catalog catalog :=
  ⟨fun row member => ⟨row, member, rfl⟩, unique⟩

theorem key_of_contract {left right : ActionManifest} (same : left.contract = right.contract) :
    left.key = right.key := by
  change left.contract.key = right.contract.key
  rw [same]

theorem contract_of_key {catalog : Catalog} (unique : catalog.keys.Nodup)
    {left right : ActionManifest} (first : left ∈ catalog) (second : right ∈ catalog)
    (same : left.key = right.key) : left = right :=
  List.inj_on_of_nodup_map unique first second same

theorem Kept.update {catalog : Catalog} (unique : catalog.keys.Nodup)
    (matched : ActionManifest → Bool) (change : ActionManifest → ActionManifest)
    (stable : ∀ row, (change row).contract = row.contract) :
    Kept catalog (Table.update matched change catalog) where
  rows := by
    intro row member
    refine ⟨if matched row then change row else row, Table.mem_update.mpr ⟨row, member, rfl⟩, ?_⟩
    split
    · exact stable row
    · rfl
  unique := by
    have keys := Table.map_update ActionManifest.key matched change
      (fun row => key_of_contract (stable row)) catalog
    rw [Catalog.keys, keys]
    exact unique

theorem Kept.makeDefault {catalog : Catalog} (unique : catalog.keys.Nodup)
    (module action : String) (version : Int) :
    Kept catalog (catalog.makeDefault module action version) := by
  have cleared := Kept.update unique (fun row => row.onRoute module action)
    (fun row => { row with isDefault := false }) fun _ => rfl
  have raised := Kept.update cleared.unique (fun row => row.isVersion module action version)
    (fun row => { row with enabled := true, isDefault := true }) fun _ => rfl
  exact cleared.trans raised

theorem Kept.disable {catalog later : Catalog} {reply : CatalogReply}
    (unique : catalog.keys.Nodup) {module action : String} {version : Int}
    (returned : catalog.disable module action version = .ok (later, reply)) :
    Kept catalog later := by
  unfold Catalog.disable at returned
  split at returned
  · cases returned
  · cases returned
    exact Kept.update unique (fun row => row.isVersion module action version)
      (fun row => { row with enabled := false }) fun _ => rfl

theorem Kept.insert {catalog : Catalog} (unique : catalog.keys.Nodup) {row : ActionManifest}
    (fresh : ∀ other ∈ catalog, other.key ≠ row.key) : Kept catalog (catalog ++ [row]) := by
  refine ⟨fun other member => ⟨other, List.mem_append_left _ member, rfl⟩, ?_⟩
  rw [Catalog.keys, List.map_append, List.nodup_append]
  refine ⟨unique, List.nodup_singleton _, ?_⟩
  intro left inside right single same
  obtain ⟨other, member, keyed⟩ := List.mem_map.mp inside
  rw [List.map_singleton, List.mem_singleton] at single
  exact fresh other member (by rw [keyed, same, single])

theorem Kept.publish {registered : String → String → Bool} {catalog later : Catalog}
    {document : ManifestDocument} {reply : CatalogReply} (unique : catalog.keys.Nodup)
    (returned : publishAction registered catalog document = .ok (later, reply)) :
    Kept catalog later := by
  unfold publishAction at returned
  split at returned
  · cases returned
  · split at returned
    · rename_i module action version hasModule hasAction hasVersion
      split at returned
      · split at returned
        · cases returned
          exact Kept.refl unique
        · cases returned
      · rename_i absent
        split at returned
        · cases returned
        · rename_i row formed
          split at returned
          · cases returned
          · split at returned
            · cases returned
            · cases returned
              refine Kept.insert unique fun other member same => ?_
              have missed := List.find?_eq_none.mp absent other member
              have key : row.key = (module, action, version) := by
                exact ManifestDocument.row?_key hasModule hasAction hasVersion formed
              rw [key] at same
              simp only [ActionManifest.key, Prod.mk.injEq] at same
              simp [ActionManifest.isVersion, ActionManifest.onRoute, same] at missed
    · cases returned

end Catalog

theorem CatalogCall.run_kept {registered : String → String → Bool} {catalog later : Catalog}
    {call : CatalogCall} {reply : CatalogReply} (unique : catalog.keys.Nodup)
    (returned : call.run registered catalog = .ok (later, reply)) : Catalog.Kept catalog later := by
  cases call with
  | publish document => exact Catalog.Kept.publish unique returned
  | activate module action version =>
      simp only [CatalogCall.run, activateAction] at returned
      split at returned
      · cases returned
      · split at returned
        · cases returned
        · cases returned
          exact Catalog.Kept.makeDefault unique module action version
  | disable module action version replacement =>
      simp only [CatalogCall.run, disableAction] at returned
      split at returned
      · cases returned
      · split at returned
        · cases returned
        · split at returned
          · exact Catalog.Kept.disable unique returned
          · rename_i other
            split at returned
            · cases returned
            · have raised := Catalog.Kept.makeDefault unique module action other
              exact raised.trans (Catalog.Kept.disable raised.unique returned)

theorem CatalogCall.kept (registered : String → String → Bool) {catalog : Catalog}
    (call : CatalogCall) (unique : catalog.keys.Nodup) :
    Catalog.Kept catalog (call.committed registered catalog) := by
  unfold CatalogCall.committed
  split
  · rename_i later reply returned
    exact call.run_kept unique returned
  · exact Catalog.Kept.refl unique

/-- The upkeep of the catalog that publications of flow maps have to allow for. -/
theorem CatalogCall.published {registered : String → String → Bool} {config : Config}
    {catalog : Catalog} (call : CatalogCall) (published : Published config)
    (unique : catalog.keys.Nodup)
    (same : config.actionCatalog = catalog.map ActionManifest.toActionRow) :
    Published { config with
      actionCatalog := (call.committed registered catalog).map ActionManifest.toActionRow } := by
  have kept := call.kept registered unique
  refine published.catalogued ⟨?_, ?_⟩
  · intro row member
    rw [same] at member
    obtain ⟨manifest, inside, rfl⟩ := List.mem_map.mp member
    obtain ⟨after, present, equal⟩ := kept.rows manifest inside
    refine ⟨after.toActionRow, List.mem_map_of_mem present, ?_⟩
    exact congrArg ActionManifest.toActionRow equal
  · have keys : ((call.committed registered catalog).map ActionManifest.toActionRow).map
        ActionRow.key = (call.committed registered catalog).keys := by
      simp only [List.map_map, Catalog.keys]
      rfl
    rw [keys]
    exact kept.unique

end PaymentWorkflow
