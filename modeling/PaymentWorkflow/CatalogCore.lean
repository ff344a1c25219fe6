import PaymentWorkflow.PublishProofs

/-!
`api.action_catalog` as publications, activations and the two lookups of a route see it:
`006_publication_api.sql`, `ActionCatalogService.cs` and the first query of `api.invoke`.
-/

namespace PaymentWorkflow

inductive IdempotencyMode
  | none | optional | required
deriving DecidableEq

inductive IdempotencyScope
  | none | principalAction | consumerAction | globalAction
deriving DecidableEq

def IdempotencyMode.ofText? : String → Option IdempotencyMode
  | "none" => some .none
  | "optional" => some .optional
  | "required" => some .required
  | _ => Option.none

def IdempotencyScope.ofText? : String → Option IdempotencyScope
  | "none" => some .none
  | "principal_action" => some .principalAction
  | "consumer_action" => some .consumerAction
  | "global_action" => some .globalAction
  | _ => Option.none

/-- A row of the catalog; the engine and the API read the names in `outcomes` and
`required_policy` from the two jsonb columns. -/
structure ActionManifest extends ActionRow where
  outcomesColumn : Json := .array (outcomes.map .text)
  policyColumn : Json := .array (requiredPolicy.map .text)
  contractVersion : String
  httpMethod : String
  idempotencyMode : IdempotencyMode
  idempotencyScope : IdempotencyScope
  timeoutMs : Int
deriving DecidableEq

abbrev Catalog := List ActionManifest

namespace ActionManifest

def contract (manifest : ActionManifest) : ActionManifest :=
  { manifest with enabled := true, isDefault := true }

def key (manifest : ActionManifest) : String × String × Int :=
  (manifest.module, manifest.action, manifest.version)

def onRoute (manifest : ActionManifest) (module action : String) : Bool :=
  manifest.module = module ∧ manifest.action = action

def isVersion (manifest : ActionManifest) (module action : String) (version : Int) : Bool :=
  manifest.onRoute module action ∧ manifest.version = version

end ActionManifest

/-- `p_manifest` read with `->>`, `->` and the casts; `none` is SQL NULL. `complete` says that the
nine keys tested with `?` are there, if only with a null, `timeoutCasts` that `::integer` reads
`timeout_ms`. -/
structure ManifestDocument where
  complete : Bool := true
  contractVersion : Option String
  module : Option String
  action : Option String
  version : Option Int
  httpMethod : Option String
  targetSchema : Option String
  targetFunction : Option String
  requestSchema : Option Json
  responseSchema : Option Json
  outcomes : Option Json
  requiredPolicy : Option Json
  idempotencyMode : Option String
  idempotencyScope : Option String
  timeoutMs : Option Int
  timeoutCasts : Bool := true
  enabled : Option Bool
  isDefault : Option Bool
deriving DecidableEq

inductive CatalogError
  | manifestInvalid | manifestConflict | actionInvalid | actionNotFound | checkViolation
deriving DecidableEq

def isRouteName (name : String) : Bool :=
  match name.toList with
  | [] => false
  | first :: rest =>
      first.isLower && rest.all (fun char => char.isLower || char.isDigit || char = '_') &&
        rest.length ≤ 62

/-- A condition on a column is true where the column is not NULL and meets it. -/
def isTrue {Column : Type} (column : Option Column) (condition : Column → Bool) : Bool :=
  column.any condition

def ManifestDocument.refused (document : ManifestDocument) : Bool :=
  !document.complete ||
  isTrue document.contractVersion (· ≠ "course-1") ||
  isTrue document.httpMethod (· ≠ "POST") ||
  isTrue document.module (fun name => !isRouteName name) ||
  isTrue document.action (fun name => !isRouteName name) ||
  isTrue document.version (· < 1) ||
  !document.timeoutCasts ||
  isTrue document.timeoutMs (fun limit => !(1 ≤ limit && limit ≤ 30000)) ||
  isTrue document.idempotencyMode (fun mode => (IdempotencyMode.ofText? mode).isNone) ||
  isTrue document.idempotencyScope (fun scope => (IdempotencyScope.ofText? scope).isNone) ||
  (isTrue document.idempotencyMode (· = "none") &&
    isTrue document.idempotencyScope (· ≠ "none")) ||
  (isTrue document.isDefault id && isTrue document.enabled (!·))

def ManifestDocument.columns? (document : ManifestDocument) : Option ActionManifest := do
  some {
    module := ← document.module, action := ← document.action, version := ← document.version
    targetSchema := ← document.targetSchema, targetFunction := ← document.targetFunction
    requestSchema := ← document.requestSchema, responseSchema := ← document.responseSchema
    outcomes := (← document.outcomes).keys, outcomesColumn := ← document.outcomes
    requiredPolicy := (← document.requiredPolicy).keys, policyColumn := ← document.requiredPolicy
    contractVersion := ← document.contractVersion, httpMethod := ← document.httpMethod
    idempotencyMode := ← document.idempotencyMode.bind IdempotencyMode.ofText?
    idempotencyScope := ← document.idempotencyScope.bind IdempotencyScope.ofText?
    timeoutMs := ← document.timeoutMs
    enabled := document.enabled.getD false, isDefault := document.isDefault.getD false }

def ManifestDocument.row? (document : ManifestDocument) : Option ActionManifest :=
  document.columns?.filter fun row => !row.isDefault || row.enabled

def ManifestDocument.contractEquals (document : ManifestDocument) (existing : ActionManifest) :
    Bool :=
  isTrue document.contractVersion (existing.contractVersion = ·) &&
  isTrue document.httpMethod (existing.httpMethod = ·) &&
  isTrue document.targetSchema (existing.targetSchema = ·) &&
  isTrue document.targetFunction (existing.targetFunction = ·) &&
  isTrue document.requestSchema existing.requestSchema.same &&
  isTrue document.responseSchema existing.responseSchema.same &&
  isTrue document.outcomes existing.outcomesColumn.same &&
  isTrue document.requiredPolicy existing.policyColumn.same &&
  isTrue (document.idempotencyMode.bind IdempotencyMode.ofText?) (existing.idempotencyMode = ·) &&
  isTrue (document.idempotencyScope.bind IdempotencyScope.ofText?)
    (existing.idempotencyScope = ·) &&
  isTrue document.timeoutMs (existing.timeoutMs = ·)

/-- `v_equal`, which is true only where no compared value is NULL. -/
def ManifestDocument.equals (document : ManifestDocument) (existing : ActionManifest) : Bool :=
  document.contractEquals existing && existing.enabled = document.enabled.getD false &&
    existing.isDefault = document.isDefault.getD false

def Catalog.find (catalog : Catalog) (module action : String) (version : Int) :
    Option ActionManifest :=
  catalog.find? fun row => row.isVersion module action version

inductive CatalogReply
  | published | exists | activated | disabled
deriving DecidableEq

/-- `registered` says whether `course_target` owns a function of the target's signature. -/
def publishAction (registered : String → String → Bool) (catalog : Catalog)
    (document : ManifestDocument) : Except CatalogError (Catalog × CatalogReply) :=
  if document.refused then .error .manifestInvalid
  else
    match document.module, document.action, document.version with
    | some module, some action, some version =>
        match catalog.find module action version with
        | some existing =>
            if document.equals existing then .ok (catalog, .exists) else .error .manifestConflict
        | none =>
            match document.row? with
            | none => .error .manifestInvalid
            | some row =>
                if ¬ registered row.targetSchema row.targetFunction then .error .manifestInvalid
                else if row.isDefault &&
                    catalog.any fun other => other.onRoute module action && other.isDefault then
                  .error .manifestConflict
                else .ok (catalog ++ [row], .published)
    | _, _, _ => .error .manifestInvalid

def Catalog.makeDefault (catalog : Catalog) (module action : String) (version : Int) : Catalog :=
  let cleared := Table.update (fun row => row.onRoute module action)
    (fun row => { row with isDefault := false }) catalog
  Table.update (fun row => row.isVersion module action version)
    (fun row => { row with enabled := true, isDefault := true }) cleared

def activateAction (catalog : Catalog) (module action : String) (version : Int) :
    Except CatalogError (Catalog × CatalogReply) :=
  if ¬ isRouteName module ∨ ¬ isRouteName action ∨ version < 1 then .error .actionInvalid
  else if (catalog.find module action version).isNone then .error .actionNotFound
  else .ok (catalog.makeDefault module action version, .activated)

def Catalog.disable (catalog : Catalog) (module action : String) (version : Int) :
    Except CatalogError (Catalog × CatalogReply) :=
  if catalog.any fun row => row.isVersion module action version && row.isDefault then
    .error .checkViolation
  else
    .ok (Table.update (fun row => row.isVersion module action version)
      (fun row => { row with enabled := false }) catalog, .disabled)

def disableAction (catalog : Catalog) (module action : String) (version : Int)
    (replacement : Option Int) : Except CatalogError (Catalog × CatalogReply) :=
  if ¬ isRouteName module ∨ ¬ isRouteName action ∨ version < 1 then .error .actionInvalid
  else if (catalog.find module action version).isNone then .error .actionNotFound
  else
    match replacement with
    | none => catalog.disable module action version
    | some other =>
        let offered := catalog.any fun row => row.isVersion module action other && row.enabled
        if other = version ∨ ¬ offered then .error .actionInvalid
        else (catalog.makeDefault module action other).disable module action version

def Catalog.getOrDefault (catalog : Catalog) (module action : String)
    (explicitVersion : Option Int) : Option ActionManifest :=
  match explicitVersion with
  | some version => catalog.find? fun row => row.isVersion module action version && row.enabled
  | none => catalog.find? fun row => row.onRoute module action && row.isDefault && row.enabled

def Catalog.default? (catalog : Catalog) (module action : String) : Option ActionManifest :=
  catalog.find? fun row => row.onRoute module action && row.isDefault

def Catalog.invoked (catalog : Catalog) (module action : String) (version : Option Int) :
    Except String ActionManifest :=
  match version with
  | some number =>
      match catalog.find module action number with
      | none => .error "unknown or disabled action"
      | some row => if row.enabled then .ok row else .error "unknown or disabled action"
  | none =>
      match catalog.default? module action with
      | none => .error "no default version"
      | some row => .ok row

/-! The calls of the publisher's role. -/

inductive CatalogCall
  | publish (document : ManifestDocument)
  | activate (module action : String) (version : Int)
  | disable (module action : String) (version : Int) (replacement : Option Int)

def CatalogCall.run (registered : String → String → Bool) (catalog : Catalog) :
    CatalogCall → Except CatalogError (Catalog × CatalogReply)
  | .publish document => publishAction registered catalog document
  | .activate module action version => activateAction catalog module action version
  | .disable module action version replacement =>
      disableAction catalog module action version replacement

def CatalogCall.committed (registered : String → String → Bool) (catalog : Catalog)
    (call : CatalogCall) : Catalog :=
  match call.run registered catalog with
  | .ok (changed, _) => changed
  | .error _ => catalog

end PaymentWorkflow
