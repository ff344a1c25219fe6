import PaymentWorkflow.HandedProofs
import PaymentWorkflow.FaultProofs

/-! The scopes a map gives the worker are those its actions ask for, whoever runs them. -/

namespace PaymentWorkflow

def workerScopes : List String := ["workflow:execute", "payment:internal"]

def Granted (scopes : List String) : Prop := ∀ scope ∈ scopes, scope ∈ workerScopes

instance (scopes : List String) : Decidable (Granted scopes) :=
  inferInstanceAs (Decidable (∀ scope ∈ scopes, scope ∈ workerScopes))

def FlowTask.Calls (config : Config) (task : FlowTask) (row : ActionRow) : Prop :=
  config.action? task.module task.action task.actionVersion = some row

/-- The job brings no scope of its own, and `api.invoke` refuses it an action that asks for one. -/
structure Contained (config : Config) (claimed : ClaimedJob) : Prop where
  granted : Granted (workerContext claimed).scopes
  refused : ∀ row, claimed.task.Calls config row → row.enabled = true →
    ¬ Granted row.requiredPolicy → ∀ (db : Db) (payload : Json), db.config = config →
      invoke db claimed.task.module claimed.task.action (some claimed.task.actionVersion)
        (workerContext claimed) payload = .ok (db, .error "access.denied" "insufficient policy")

def Config.Internal (config : Config) : Prop :=
  ∀ version ∈ config.flowVersions, ∀ step ∈ version.map.steps, step.type = "automatic" →
    ∀ task row, step.task = some task → task.Calls config row → Granted row.requiredPolicy

section Handed

variable {db : Db} {claimed : ClaimedJob} {row : ActionRow}

theorem Granted.congr {left right : List String} (same : ∀ scope, scope ∈ left ↔ scope ∈ right) :
    Granted left ↔ Granted right :=
  ⟨fun granted scope member => granted scope ((same scope).mpr member),
    fun granted scope member => granted scope ((same scope).mp member)⟩

theorem Db.HasHanded.calls (handed : db.HasHanded claimed) : ∃ row, claimed.task.Calls db.config row := by
  obtain ⟨_, _, _, handed⟩ := handed
  obtain ⟨row, catalogued, _⟩ := handed.action
  exact ⟨row, catalogued⟩

theorem Db.HasHanded.policy (handed : db.HasHanded claimed) (faithful : db.config.Faithful)
    (calls : claimed.task.Calls db.config row) :
    (∃ version ∈ db.config.flowVersions, ∃ step ∈ version.map.steps, step.type = "automatic" ∧
      step.task = some claimed.task) ∧
      ∀ scope, scope ∈ (workerContext claimed).scopes ↔ scope ∈ row.requiredPolicy := by
  obtain ⟨job, step, process, handed⟩ := handed
  obtain ⟨definition, found, same⟩ := handed.task
  obtain ⟨version, inside, _, _, ⟨mapped, member, _, automatic, has⟩, _, policies⟩ :=
    faithful.checked found (same ▸ calls)
  rw [same] at has policies
  exact ⟨⟨version, inside, mapped, member, automatic, has⟩, policies⟩

theorem Db.HasHanded.contained_iff (handed : db.HasHanded claimed) (faithful : db.config.Faithful)
    (calls : claimed.task.Calls db.config row) :
    Contained db.config claimed ↔ Granted row.requiredPolicy := by
  have same := Granted.congr (handed.policy faithful calls).2
  constructor
  · intro contained
    exact same.mp contained.granted
  · intro granted
    refine ⟨same.mpr granted, ?_⟩
    intro other otherCalls _ excess
    rw [FlowTask.Calls, calls] at otherCalls
    exact absurd (Option.some.inj otherCalls ▸ granted) excess

end Handed

/--
A job brings scopes of its own exactly when its action asks for them, and the policy test of
`api.invoke` lets it through either way.
-/
theorem scopes_contained {config : Config} (published : Published config) (clock : Nat → Time)
    (digest : String → String) (calls : List Call) :
    ((∀ claimed ∈ (reached config clock digest calls).handed, Contained config claimed) ↔
      ∀ claimed ∈ (reached config clock digest calls).handed, ∀ row,
        claimed.task.Calls config row → Granted row.requiredPolicy) ∧
    (config.Internal →
      ∀ claimed ∈ (reached config clock digest calls).handed, Contained config claimed) ∧
    ∀ claimed ∈ (reached config clock digest calls).handed, ∀ row,
      claimed.task.Calls config row →
        row.requiredPolicy.all (workerContext claimed).scopes.contains = true := by
  have handed := reached_handed config clock digest calls
  have same : (reached config clock digest calls).db.config = config := reached_config calls
  have faithful : (reached config clock digest calls).db.config.Faithful := by
    rw [same]
    exact published.faithful
  have exact : ∀ claimed ∈ (reached config clock digest calls).handed, ∀ row,
      claimed.task.Calls config row → (Contained config claimed ↔ Granted row.requiredPolicy) := by
    intro claimed member row calls
    rw [← same] at calls ⊢
    exact (handed claimed member).contained_iff faithful calls
  have called : ∀ claimed ∈ (reached config clock digest calls).handed,
      ∃ row, claimed.task.Calls config row := by
    intro claimed member
    rw [← same]
    exact (handed claimed member).calls
  refine ⟨⟨?_, ?_⟩, ?_, ?_⟩
  · intro contained claimed member row calls
    exact (exact claimed member row calls).mp (contained claimed member)
  · intro granted claimed member
    obtain ⟨row, calls⟩ := called claimed member
    exact (exact claimed member row calls).mpr (granted claimed member row calls)
  · intro internal claimed member
    obtain ⟨row, calls⟩ := called claimed member
    obtain ⟨⟨version, inside, step, mapped, automatic, has⟩, _⟩ :=
      (handed claimed member).policy faithful (same.symm ▸ calls)
    exact (exact claimed member row calls).mpr
      (internal version (same ▸ inside) step mapped automatic claimed.task row has calls)
  · intro claimed member row calls
    rw [List.all_eq_true]
    intro scope needed
    rw [List.contains_iff_mem]
    exact (((handed claimed member).policy faithful (same.symm ▸ calls)).2 scope).mpr needed

theorem scopes_contained_prepared :
    Contained Seed.config (Seed.claimed 3 2 5
      (Seed.internal "validate_operation" "validate" ⟨some 1, []⟩) ["VALID"]) := by
  refine (scopes_contained Seed.published (fun tick => (tick : Int)) id Seed.prepared).1.mpr ?_ _
    (by decide +kernel)
  intro claimed member row calls
  have granted : ∀ row ∈ Seed.config.actionCatalog,
      row.module = "payment" → row.action ∈ ["validate", "prepare_external"] →
        Granted row.requiredPolicy := by decide +kernel
  have named : ∀ claimed ∈ (reached Seed.config (fun tick => (tick : Int)) id Seed.prepared).handed,
      claimed.task.module = "payment" ∧ claimed.task.action ∈ ["validate", "prepare_external"] := by
    decide +kernel
  have keyed := List.find?_some calls
  simp only [decide_eq_true_eq] at keyed
  refine granted row (List.mem_of_find?_eq_some calls) (keyed.1.trans (named claimed member).1) ?_
  rw [keyed.2.1]
  exact (named claimed member).2

namespace Seed

def sender : FlowMap where
  contractVersion := "course-1"
  flowName := "sender"
  version := 1
  startStep := "submit"
  steps := [automatic "submit" "payment" "submit" "payment:write" ⟨some 1, []⟩ "/operationId" 1,
    finish "done" "COMPLETED"]
  transitions := [⟨"submit", "PROCESSING", "done"⟩]

theorem sender_published : Published (publish blank (sender, true)) := by
  have empty : Published blank := .blank rfl rfl rfl rfl (by decide +kernel)
  have accepted : sender.Accepted blank.actionCatalog := ⟨by decide +kernel, by decide +kernel⟩
  exact (@publish_published blank empty (sender, true) accepted).1

def sent : List Call := [request "PAYMENT_EXECUTION" "10.00",
  .startProcess "sender" "first" (.object [("operationId", .text (uuidText 0))]), claim]

end Seed

/-- The validator accepts the map, and its job is handed out with `payment:write`. -/
theorem client_scope_given :
    ¬ ∀ config, Published config → ∀ (calls : List Call),
      ∀ claimed ∈ (reached config (fun tick => (tick : Int)) id calls).handed,
        Contained config claimed := by
  intro always
  have contained := always _ Seed.sender_published Seed.sent
  have given : ∃ claimed ∈ (reached (Seed.publish Seed.blank (Seed.sender, true))
      (fun tick => (tick : Int)) id Seed.sent).handed,
        ¬ Granted (workerContext claimed).scopes := by decide +kernel
  obtain ⟨claimed, member, excess⟩ := given
  exact excess (contained claimed member).granted

end PaymentWorkflow
