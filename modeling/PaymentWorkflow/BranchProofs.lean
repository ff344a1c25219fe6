import PaymentWorkflow.AgreementProofs

/-!
The step that decides a payment. A process that has come to its end went from a branching step to a
closing action and from there to the end, and past no other branching step with a verdict.
-/

namespace PaymentWorkflow

def branchingSteps : List String := ["apply_receipt", "check_limit", "wait_manual_decision"]

structure Config.Branches (config : Config) : Prop where
  ends : ∀ row ∈ config.stepDefinitions, config.pays row.flowName = true →
    row.stepType = .endStep → row.stepKey = "done"
  leaves : ∀ transition ∈ config.transitionDefinitions, config.pays transition.flowName = true →
    transition.fromStepKey ≠ "done"
  closes : ∀ transition ∈ config.transitionDefinitions, config.pays transition.flowName = true →
    (transition.toStepKey = "done" ↔ (closingAction? transition.fromStepKey).isSome = true)
  decides : ∀ transition ∈ config.transitionDefinitions, config.pays transition.flowName = true →
    ((closingAction? transition.toStepKey).isSome = true ↔
      transition.fromStepKey ∈ branchingSteps ∧ (verdict? transition.outcome).isSome = true)

theorem Seed.branches : Seed.config.Branches := by
  constructor <;> decide +kernel

theorem branching_stays_open {stepKey : String} (branching : stepKey ∈ branchingSteps) :
    closingAction? stepKey = none ∧ stepKey ≠ "done" := by
  revert stepKey
  decide

section Walk

variable {config : Config} {flowName : String} {flowVersion : Int} {step next : StepInstance}

theorem Leads.row (leads : Leads config flowName flowVersion step next) :
    ∃ transition ∈ config.transitionDefinitions, transition.flowName = flowName ∧
      transition.fromStepKey = step.stepKey ∧ step.outcome = some transition.outcome ∧
        transition.toStepKey = next.stepKey := by
  obtain ⟨_, transition, located, target⟩ := leads
  have row := List.find?_some located
  simp only [decide_eq_true_eq, Option.some.injEq] at row
  exact ⟨transition, List.mem_of_find?_eq_some located, row.1, row.2.2.1, row.2.2.2.symm, target⟩

variable (branches : config.Branches) (pays : config.pays flowName = true)
include branches pays

theorem Leads.leaves (leads : Leads config flowName flowVersion step next) :
    step.stepKey ≠ "done" := by
  obtain ⟨transition, member, flow, source, _⟩ := leads.row
  rw [← source]
  exact branches.leaves transition member (by rw [flow]; exact pays)

theorem Leads.closes (leads : Leads config flowName flowVersion step next) :
    next.stepKey = "done" ↔ (closingAction? step.stepKey).isSome = true := by
  obtain ⟨transition, member, flow, source, _, target⟩ := leads.row
  rw [← source, ← target]
  exact branches.closes transition member (by rw [flow]; exact pays)

theorem Leads.decides (leads : Leads config flowName flowVersion step next) :
    (closingAction? next.stepKey).isSome = true ↔
      step.stepKey ∈ branchingSteps ∧ (step.outcome.bind verdict?).isSome = true := by
  obtain ⟨transition, member, flow, source, outcome, target⟩ := leads.row
  rw [← source, ← target, outcome, Option.bind_some]
  exact branches.decides transition member (by rw [flow]; exact pays)

/-- A walk that ends with the flow has one branching step with a verdict: the last but two. -/
theorem walk_branch {before : List StepInstance} {step closing last : StepInstance}
    (walk : List.IsChain (Leads config flowName flowVersion)
      (before ++ [step] ++ [closing] ++ [last])) (ended : last.stepKey = "done") :
    step.state = .completed ∧ step.stepKey ∈ branchingSteps ∧
      ∀ other ∈ before ++ [step] ++ [closing] ++ [last], other.stepKey ∈ branchingSteps →
        (other.outcome.bind verdict?).isSome = true → other = step := by
  obtain ⟨toClosing, _, toLast⟩ := List.isChain_append.mp walk
  obtain ⟨toStep, _, toNext⟩ := List.isChain_append.mp toClosing
  have leads := toNext step (by simp) closing (by simp)
  have closes := ((toLast closing (by simp) last (by simp)).closes branches pays).mp ended
  refine ⟨leads.1, ((leads.decides branches pays).mp closes).1, ?_⟩
  intro other member branching verdict
  obtain ⟨stays, open_⟩ := branching_stays_open branching
  rcases List.mem_append.mp member with inside | final
  swap
  · rw [List.mem_singleton.mp final] at open_
    exact absurd ended open_
  rcases List.mem_append.mp inside with inside | final
  swap
  · rw [List.mem_singleton.mp final] at stays
    rw [stays] at closes
    cases closes
  rcases List.mem_append.mp inside with earlier | final
  · -- a verdict further back would have led to the end before
    obtain ⟨next, nextInside, first⟩ := walk_followed toStep other earlier
    obtain ⟨after, afterInside, second⟩ := walk_followed toClosing next nextInside
    obtain ⟨_, _, third⟩ := walk_followed walk after afterInside
    have closing := (first.decides branches pays).mpr ⟨branching, verdict⟩
    exact absurd ((second.closes branches pays).mpr closing) (third.leaves branches pays)
  · exact List.mem_singleton.mp final

end Walk

theorem branching_split {steps : List StepInstance} {step : StepInstance}
    (found : steps.dropLast.dropLast.getLast? = some step) :
    ∃ before closing last, steps = before ++ [step] ++ [closing] ++ [last] := by
  obtain ⟨before, first⟩ := List.getLast?_eq_some_iff.mp found
  have second : steps.dropLast ≠ [] := by
    rintro empty
    rw [empty] at first
    simp at first
  have third : steps ≠ [] := by
    rintro rfl
    exact second rfl
  refine ⟨before, steps.dropLast.getLast second, steps.getLast third, ?_⟩
  rw [← first, List.dropLast_append_getLast, List.dropLast_append_getLast]

section Ends

variable {db : Db} {operation : Operation} {process : Process}

/-- A branching step of the process has been completed with one of these outcomes. -/
def Db.Went (db : Db) (processId : Nat) (outcomes : List String) : Prop :=
  ∃ step ∈ db.workflow.steps, step.processId = processId ∧ step.stepKey ∈ branchingSteps ∧
    step.state = .completed ∧ ∃ outcome ∈ outcomes, step.outcome = some outcome

theorem Db.Meets.went_iff (meets : db.Meets operation process) (rows : db.Rows)
    (trailed : db.Trailed) (branches : db.config.Branches)
    (member : process ∈ db.workflow.processes) (pays : db.config.pays process.flowName = true)
    (completed : process.state = .completed) {status : OperationStatus} {outcomes : List String}
    (names : ∀ outcome, outcome ∈ outcomes ↔ verdict? outcome = some status) :
    operation.status = status ↔ db.Went process.id outcomes := by
  obtain ⟨earlier, last, trail⟩ := trailed process.id process (rows.process? member)
  have verdict := meets.verdict completed
  rw [View.branching, Option.bind_assoc] at verdict
  obtain ⟨step, found, decided⟩ := Option.bind_eq_some_iff.mp verdict
  obtain ⟨before, closing, final, split⟩ := branching_split found
  obtain ⟨same, ends⟩ := List.append_inj' (trail.steps.symm.trans split) rfl
  obtain rfl := List.cons.inj ends |>.1
  have ended : last.stepKey = "done" := by
    have inside : last ∈ (db.view process.id).steps := by
      rw [trail.steps]
      simp
    obtain ⟨stepMember, owns⟩ := Db.mem_view_steps.mp inside
    obtain ⟨definition, defined, type⟩ := rows.definition stepMember member owns.symm
    have row := List.find?_some defined
    simp only [decide_eq_true_eq] at row
    rw [← row.2.2]
    exact branches.ends definition (List.mem_of_find?_eq_some defined)
      (by rw [row.1]; exact pays) (type.trans (trail.completed completed).1)
  have walk := trail.walk
  rw [same] at walk
  obtain ⟨done, branching, only⟩ := walk_branch branches pays walk ended
  rw [← split] at only
  constructor
  · rintro rfl
    obtain ⟨outcome, went, settled⟩ := Option.bind_eq_some_iff.mp decided
    have inside : step ∈ (db.view process.id).steps := by
      rw [split]
      simp
    obtain ⟨stepMember, owns⟩ := Db.mem_view_steps.mp inside
    exact ⟨step, stepMember, owns, branching, done, outcome, (names outcome).mpr settled, went⟩
  · rintro ⟨other, otherMember, owns, otherBranching, _, outcome, listed, went⟩
    have settled := (names outcome).mp listed
    obtain rfl := only other (Db.mem_view_steps.mpr ⟨otherMember, owns⟩) otherBranching
      (by rw [went, Option.bind_some, settled]; rfl)
    rw [went, Option.bind_some, settled] at decided
    exact (Option.some.inj decided).symm

end Ends

theorem verdict?_completed (outcome : String) :
    outcome ∈ ["COMPLETED", "WITHIN_LIMIT", "APPROVED"] ↔ verdict? outcome = some .completed := by
  unfold verdict?
  split <;> simp_all

theorem verdict?_rejected (outcome : String) :
    outcome ∈ ["REJECTED"] ↔ verdict? outcome = some .rejected := by
  unfold verdict?
  split <;> simp_all

/-- In runs where the internal actions are left to the workers, an operation is unpinned while it is
CREATED, ends with its process, and ends the way the branching step of the process went. -/
theorem payments_end_with_processes (clock : Nat → Time) (digest : String → String)
    (calls : List Call) (ordinary : ∀ call ∈ calls, call.ordinary = true) :
    let db := (reached Seed.config clock digest calls).db
    ∀ operation ∈ db.payment.operations,
      (operation.processId = none ↔ operation.status = .created) ∧
      ((db.eventTypes operation.id).count .submitted = 1 ↔ operation.status ≠ .created) ∧
      ∀ processId, operation.processId = some processId →
        ∃ process ∈ db.workflow.processes, process.id = processId ∧
          (process.state = .completed ↔
            operation.status = .completed ∨ operation.status = .rejected) ∧
          (process.state = .completed →
            (db.eventTypes operation.id).countP (fun type => type = .completed ∨ type = .rejected) =
                1 ∧
              (operation.status = .completed ↔
                db.Went processId ["COMPLETED", "WITHIN_LIMIT", "APPROVED"]) ∧
              (operation.status = .rejected ↔ db.Went processId ["REJECTED"])) := by
  intro db operation member
  have proper := @reached_proper clock digest Seed.config Seed.paymentFlows calls ordinary
  obtain ⟨log, unpinned, pinned⟩ := proper.agreed.consistent proper.pins member
  have rows := proper.steady.calm.sound.rows
  refine ⟨unpinned, ?_, ?_⟩
  · rw [log]
    cases operation.status <;> decide
  intro processId pin
  obtain ⟨process, inside, rfl, meets⟩ := pinned processId pin
  have terminal : operation.status.terminal = true ↔
      operation.status = .completed ∨ operation.status = .rejected := by
    cases operation.status <;> decide
  refine ⟨process, inside, rfl, meets.ended.trans terminal, fun completed => ?_⟩
  have branches : db.config.Branches := by
    rw [reached_config]
    exact Seed.branches
  have pays := (proper.pins.startedFor rows member inside pin).pays
  have went := fun {status outcomes} => @Db.Meets.went_iff db operation process meets rows
    proper.trailed branches inside pays completed status outcomes
  refine ⟨?_, went verdict?_completed, went verdict?_rejected⟩
  rw [log]
  rcases terminal.mp (meets.ended.mp completed) with status | status <;> rw [status] <;> decide

theorem payments_end_with_processes_completed :
    ∃ process ∈ (reached Seed.config (fun tick => (tick : Int)) id
        Seed.completed).db.workflow.processes, process.state = .completed ∧
      (reached Seed.config (fun tick => (tick : Int)) id Seed.completed).db.Went process.id
        ["COMPLETED", "WITHIN_LIMIT", "APPROVED"] := by
  have settled := payments_end_with_processes (fun tick => (tick : Int)) id Seed.completed
    (by decide +kernel) (Seed.closedOperation .paymentExecution .completed) (by decide +kernel)
  have pinned := settled.2.2 1 rfl
  obtain ⟨process, inside, same, ends, went⟩ := pinned
  have completed := ends.mpr (.inl rfl)
  refine ⟨process, inside, completed, ?_⟩
  rw [same]
  exact (went completed).2.1.mp rfl

end PaymentWorkflow
