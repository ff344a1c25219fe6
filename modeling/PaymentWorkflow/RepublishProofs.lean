import PaymentWorkflow.Interleaving
import PaymentWorkflow.RouteProofs

/-!
A manifest published again: what `publish_action` compares a stored version with, and its two
statements on the catalog, between which other publishers commit.
-/

namespace PaymentWorkflow

inductive Publication
  | called
  | sought
  | replied (reply : Except CatalogError CatalogReply)
deriving DecidableEq

/-- The next statement of the call. The INSERT waits for any other of its key, so it is one step
with the commit; what the SELECT read may be out of date by then. -/
def Publication.turn (registered : String → String → Bool) (document : ManifestDocument)
    (catalog : Catalog) : Publication → Catalog × Publication
  | .called =>
      if document.refused then (catalog, .replied (.error .manifestInvalid))
      else
        match document.module, document.action, document.version with
        | some module, some action, some version =>
            match catalog.find module action version with
            | some existing =>
                (catalog, .replied
                  (if document.equals existing then .ok .exists else .error .manifestConflict))
            | none => (catalog, .sought)
        | _, _, _ => (catalog, .sought)
  | .sought =>
      match document.row? with
      | none => (catalog, .replied (.error .manifestInvalid))
      | some row =>
          if ¬ registered row.targetSchema row.targetFunction then
            (catalog, .replied (.error .manifestInvalid))
          else if (catalog.find row.module row.action row.version).isSome ||
              (row.isDefault &&
                catalog.any fun other => other.onRoute row.module row.action && other.isDefault) then
            (catalog, .replied (.error .manifestConflict))
          else (catalog ++ [row], .replied (.ok .published))
  | .replied reply => (catalog, .replied reply)

inductive CatalogEvent
  | turn (session : Nat)
  | call (call : CatalogCall)

abbrev Publishers := Interleaving.World Catalog Publication

namespace Publishers

def fresh (catalog : Catalog) : Publishers := ⟨catalog, fun _ => .called⟩

def step (registered : String → String → Bool) (documents : Nat → ManifestDocument)
    (world : Publishers) : CatalogEvent → Publishers
  | .turn session =>
      let (catalog, publication) :=
        (world.party session).turn registered (documents session) world.shared
      world.turn session catalog publication
  | .call call => { world with shared := call.committed registered world.shared }

end Publishers

namespace ManifestDocument

def names (document : ManifestDocument) (row : ActionManifest) : Prop :=
  document.module = some row.module ∧ document.action = some row.action ∧
    document.version = some row.version

structure Columns (document : ManifestDocument) (row : ActionManifest) : Prop where
  contractVersion : document.contractVersion = some row.contractVersion
  httpMethod : document.httpMethod = some row.httpMethod
  targetSchema : document.targetSchema = some row.targetSchema
  targetFunction : document.targetFunction = some row.targetFunction
  requestSchema : document.requestSchema = some row.requestSchema
  responseSchema : document.responseSchema = some row.responseSchema
  outcomes : document.outcomes = some row.outcomesColumn
  requiredPolicy : document.requiredPolicy = some row.policyColumn
  idempotencyMode :
    document.idempotencyMode.bind IdempotencyMode.ofText? = some row.idempotencyMode
  idempotencyScope :
    document.idempotencyScope.bind IdempotencyScope.ofText? = some row.idempotencyScope
  timeoutMs : document.timeoutMs = some row.timeoutMs
  enabled : row.enabled = document.enabled.getD false
  isDefault : row.isDefault = document.isDefault.getD false

variable {document : ManifestDocument} {row stored : ActionManifest}

theorem columns_of_formed (formed : document.columns? = some row) : document.Columns row := by
  unfold columns? at formed
  obtain ⟨_, _, formed⟩ := Option.bind_eq_some_iff.mp formed
  obtain ⟨_, _, formed⟩ := Option.bind_eq_some_iff.mp formed
  obtain ⟨_, _, formed⟩ := Option.bind_eq_some_iff.mp formed
  obtain ⟨_, schema, formed⟩ := Option.bind_eq_some_iff.mp formed
  obtain ⟨_, function, formed⟩ := Option.bind_eq_some_iff.mp formed
  obtain ⟨_, request, formed⟩ := Option.bind_eq_some_iff.mp formed
  obtain ⟨_, response, formed⟩ := Option.bind_eq_some_iff.mp formed
  obtain ⟨_, _, formed⟩ := Option.bind_eq_some_iff.mp formed
  obtain ⟨_, outcomes, formed⟩ := Option.bind_eq_some_iff.mp formed
  obtain ⟨_, _, formed⟩ := Option.bind_eq_some_iff.mp formed
  obtain ⟨_, policy, formed⟩ := Option.bind_eq_some_iff.mp formed
  obtain ⟨_, contract, formed⟩ := Option.bind_eq_some_iff.mp formed
  obtain ⟨_, method, formed⟩ := Option.bind_eq_some_iff.mp formed
  obtain ⟨_, mode, formed⟩ := Option.bind_eq_some_iff.mp formed
  obtain ⟨_, scope, formed⟩ := Option.bind_eq_some_iff.mp formed
  obtain ⟨_, timeout, formed⟩ := Option.bind_eq_some_iff.mp formed
  cases formed
  exact ⟨contract, method, schema, function, request, response, outcomes, policy, mode, scope,
    timeout, rfl, rfl⟩

theorem contractEquals_row (formed : document.columns? = some row) :
    document.contractEquals row = true := by
  have columns := columns_of_formed formed
  simp [contractEquals, isTrue, columns.contractVersion, columns.httpMethod, columns.targetSchema,
    columns.targetFunction, columns.requestSchema, columns.responseSchema, columns.outcomes,
    columns.requiredPolicy, columns.idempotencyMode, columns.idempotencyScope, columns.timeoutMs,
    Json.same_refl]

theorem contractEquals_contract (document : ManifestDocument) {row stored : ActionManifest}
    (same : stored.contract = row.contract) :
    document.contractEquals stored = document.contractEquals row := by
  have contracts : ∀ manifest : ActionManifest,
      document.contractEquals manifest = document.contractEquals manifest.contract := fun _ => rfl
  rw [contracts stored, contracts row, same]

theorem names_key (formed : document.columns? = some row) :
    document.names stored ↔ stored.key = row.key := by
  obtain ⟨module, action, version⟩ := columns?_names formed
  simp only [names, module, action, version, Option.some.injEq, ActionManifest.key, Prod.mk.injEq,
    eq_comm]

end ManifestDocument

namespace Catalog

def Holds (catalog : Catalog) (document : ManifestDocument) : Prop :=
  ∃ stored ∈ catalog, document.names stored ∧ document.contractEquals stored = true

variable {catalog : Catalog} {document : ManifestDocument} {row : ActionManifest}

theorem Kept.holds {later : Catalog} (kept : Kept catalog later) (held : catalog.Holds document) :
    later.Holds document := by
  obtain ⟨stored, member, ⟨module, action, version⟩, equal⟩ := held
  obtain ⟨after, present, same⟩ := kept.rows stored member
  have keys := key_of_contract same
  simp only [ActionManifest.key, Prod.mk.injEq] at keys
  refine ⟨after, present, ⟨?_, ?_, ?_⟩, ?_⟩
  · rw [module, keys.1]
  · rw [action, keys.2.1]
  · rw [version, keys.2.2]
  · rw [document.contractEquals_contract same, equal]

theorem find_none (absent : catalog.find row.module row.action row.version = none)
    {stored : ActionManifest} (member : stored ∈ catalog) : stored.key ≠ row.key := by
  intro same
  have missed := List.find?_eq_none.mp absent stored member
  rw [isVersion_eq_key] at missed
  exact missed (decide_eq_true same)

end Catalog

/-! The two statements of a publication. -/

section Statements

variable {registered : String → String → Bool} {document : ManifestDocument}
  {catalog : Catalog} {row stored : ActionManifest}

theorem Publication.turn_sought (registered : String → String → Bool)
    (formed : document.row? = some row) :
    Publication.sought.turn registered document catalog =
      if ¬ registered row.targetSchema row.targetFunction then
        (catalog, .replied (.error .manifestInvalid))
      else if (catalog.find row.module row.action row.version).isSome ||
          (row.isDefault &&
            catalog.any fun other => other.onRoute row.module row.action && other.isDefault) then
        (catalog, .replied (.error .manifestConflict))
      else (catalog ++ [row], .replied (.ok .published)) := by
  simp only [Publication.turn, formed]

/-- The SELECT either settles the answer or leaves it to the INSERT. -/
theorem Publication.turn_called (registered : String → String → Bool) (document : ManifestDocument)
    (catalog : Catalog) :
    (∃ answer, Publication.called.turn registered document catalog = (catalog, .replied answer) ∧
      publishAction registered catalog document = answer.map fun reply => (catalog, reply)) ∨
    Publication.called.turn registered document catalog = (catalog, .sought) ∧
      publishAction registered catalog document =
        match document.row? with
        | none => .error .manifestInvalid
        | some row =>
            if ¬ registered row.targetSchema row.targetFunction then .error .manifestInvalid
            else if (catalog.find row.module row.action row.version).isSome ||
                (row.isDefault && catalog.any fun other =>
                  other.onRoute row.module row.action && other.isDefault) then
              .error .manifestConflict
            else .ok (catalog ++ [row], .published) := by
  by_cases refused : document.refused = true
  · exact .inl ⟨.error .manifestInvalid, by simp [Publication.turn, refused],
      by simp [publishAction, refused, Except.map]⟩
  rcases Option.eq_none_or_eq_some document.row? with unformed | ⟨row, formed⟩
  · simp only [Publication.turn, publishAction, refused, unformed, Bool.false_eq_true, if_false]
    cases document.module with
    | none => simp
    | some module =>
        cases document.action with
        | none => simp
        | some action =>
            cases document.version with
            | none => simp
            | some version =>
                cases found : catalog.find module action version with
                | none => simp [found]
                | some existing =>
                    by_cases same : document.equals existing = true <;> simp [found, same, Except.map]
  · obtain ⟨module, action, version, _⟩ := ManifestDocument.row?_some formed
    simp only [Publication.turn, publishAction, refused, module, action, version, formed,
      Bool.false_eq_true, if_false]
    rcases Option.eq_none_or_eq_some (catalog.find row.module row.action row.version) with
      absent | ⟨existing, found⟩
    · simp [absent]
    · by_cases same : document.equals existing = true <;> simp [found, same, Except.map]

/-- Alone on the catalog, the two statements are the call. -/
theorem Publication.alone (registered : String → String → Bool) (document : ManifestDocument)
    (catalog : Catalog) :
    let first := Publication.called.turn registered document catalog
    let second := first.2.turn registered document first.1
    second.1 = (CatalogCall.publish document).committed registered catalog ∧
      second.2 = .replied ((publishAction registered catalog document).map Prod.snd) := by
  simp only [CatalogCall.committed, CatalogCall.run]
  rcases Publication.turn_called registered document catalog with
    ⟨answer, turned, called⟩ | ⟨turned, called⟩
  · rw [turned, called]
    cases answer <;> simp [Publication.turn, Except.map]
  · rw [turned, called]
    rcases Option.eq_none_or_eq_some document.row? with unformed | ⟨row, formed⟩
    · simp [Publication.turn, unformed, Except.map]
    · simp only [Publication.turn, formed]
      split
      · simp [Except.map]
      · split <;> simp [Except.map]

theorem ManifestDocument.contractEquals_of_equals (equal : document.equals stored = true) :
    document.contractEquals stored = true := by
  simp only [equals, Bool.and_eq_true] at equal
  exact equal.1.1

end Statements

/-! A version published before. -/

section Again

variable {registered : String → String → Bool} {document : ManifestDocument}
  {catalog : Catalog}

end Again

/-! Publishers side by side. -/

section Concurrently

variable {registered : String → String → Bool} {documents : Nat → ManifestDocument}

theorem Publication.turn_kept (registered : String → String → Bool) {catalog : Catalog}
    (unique : catalog.keys.Nodup)
    (document : ManifestDocument) (publication : Publication) :
    Catalog.Kept catalog (publication.turn registered document catalog).1 := by
  cases publication with
  | called =>
      simp only [Publication.turn]
      split
      · exact .refl unique
      · split
        · split <;> exact .refl unique
        · exact .refl unique
  | sought =>
      simp only [Publication.turn]
      split
      · exact .refl unique
      · split
        · exact .refl unique
        · split
          · exact .refl unique
          · rename_i row _ _ free
            refine .insert unique fun other member => Catalog.find_none ?_ member
            rw [Bool.or_eq_true, not_or] at free
            simpa using free.1
  | replied reply => exact .refl unique

/-- A publication that answers without an error leaves its contract in the catalog. -/
theorem Publication.turn_ok {catalog : Catalog} {document : ManifestDocument}
    {publication : Publication} {reply : CatalogReply}
    (answered : (publication.turn registered document catalog).2 = .replied (.ok reply)) :
    publication = .replied (.ok reply) ∨
      Catalog.Holds (publication.turn registered document catalog).1 document := by
  cases publication with
  | called =>
      refine .inr ?_
      simp only [Publication.turn] at answered ⊢
      split at answered
      · cases answered
      · rename_i accepted
        simp only [accepted, if_false, Bool.false_eq_true]
        split at answered
        · rename_i module action version hasModule hasAction hasVersion
          split at answered
          · rename_i existing found
            split at answered
            · rename_i equal
              obtain ⟨member, rfl, rfl, rfl⟩ := Catalog.find_some found
              exact ⟨existing, member, ⟨hasModule, hasAction, hasVersion⟩,
                ManifestDocument.contractEquals_of_equals equal⟩
            · cases answered
          · cases answered
        · cases answered
  | sought =>
      refine .inr ?_
      rcases Option.eq_none_or_eq_some document.row? with unformed | ⟨row, formed⟩
      · simp [Publication.turn, unformed] at answered
      · rw [Publication.turn_sought registered formed] at answered ⊢
        split at answered
        · cases answered
        · rename_i target
          split at answered
          · cases answered
          · rename_i free
            rw [if_neg target, if_neg free]
            have columns := ManifestDocument.row?_columns formed
            exact ⟨row, List.mem_append_right _ (List.mem_singleton_self row),
              (ManifestDocument.names_key columns).mpr rfl,
              ManifestDocument.contractEquals_row columns⟩
  | replied before => exact .inl answered

namespace Publishers

def Answered (documents : Nat → ManifestDocument) (catalog : Catalog) (session : Nat)
    (publication : Publication) : Prop :=
  ∀ reply, publication = .replied (.ok reply) → catalog.Holds (documents session)

structure Tracked (first : Catalog) (documents : Nat → ManifestDocument)
    (world : Publishers) : Prop where
  kept : Catalog.Kept first world.shared
  succeeded : ∀ session, Answered documents world.shared session (world.party session)

variable {first : Catalog} {world : Publishers}

theorem Tracked.step (tracked : Tracked first documents world) (event : CatalogEvent) :
    Tracked first documents (Publishers.step registered documents world event) := by
  cases event with
  | turn session =>
      have kept := Publication.turn_kept registered tracked.kept.unique
        (documents session) (world.party session)
      refine ⟨tracked.kept.trans kept, ?_⟩
      refine Interleaving.World.turn_each tracked.succeeded ?_ ?_
      · intro reply answered
        rcases Publication.turn_ok answered with before | held
        · exact kept.holds (tracked.succeeded session reply before)
        · exact held
      · exact fun other _ before reply answered => kept.holds (before reply answered)
  | call call =>
      have kept := call.kept registered tracked.kept.unique
      exact ⟨tracked.kept.trans kept, fun session reply answered =>
        kept.holds (tracked.succeeded session reply answered)⟩

theorem Tracked.run (tracked : Tracked first documents world) (events : List CatalogEvent) :
    Tracked first documents (Runs.run (Publishers.step registered documents) world events) :=
  Runs.run_invariant (Tracked first documents) (fun _ event before => before.step event) events
    world tracked

section Second

variable {session : Nat} {row stored : ActionManifest} {seen ready : Publishers}

end Second

end Publishers

end Concurrently

namespace Seed

end Seed

end PaymentWorkflow
