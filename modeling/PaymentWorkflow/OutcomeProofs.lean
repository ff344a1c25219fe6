import PaymentWorkflow.DecisionProofs
import PaymentWorkflow.ReadingProofs

/-!
The outcomes a manual step of an accepted map allows, and those `workflow.manual` can decide it
with.
-/

namespace PaymentWorkflow

structure Db.AwaitsOutcome (db : Db) (process : Process) (step : StepInstance) (outcome : String) :
    Prop where
  owner : process ∈ db.workflow.processes
  member : step ∈ db.workflow.steps
  owns : step.processId = process.id
  manual : step.stepType = .manual
  waiting : step.state = .waiting
  allowed : ∃ definition outcomes,
    db.config.stepDefinition? process.flowName process.flowVersion step.stepKey = some definition ∧
      definition.params.allowedOutcomes = some outcomes ∧ outcome ∈ outcomes

def ManualCall.Decides (call : ManualCall) (measure : String → Nat) (db : Db) (step : StepInstance)
    (outcome : String) : Prop :=
  ∃ later result row, call.admitted? measure db = some (.ok (later, .ok outcome result)) ∧
    later.Shows call outcome { step with state := .completed, outcome := some outcome } row

/-! The request. -/

section Requests

variable {processId stepInstanceId : Nat} {decision reason : String}

theorem manualRequest_process :
    uuidArgument (manualRequest processId stepInstanceId decision reason) "processId" =
      .ok (some processId) := by
  simp [manualRequest, uuidArgument, Json.text?, Json.member?, castUuid_uuidText]

theorem manualRequest_step :
    uuidArgument (manualRequest processId stepInstanceId decision reason) "stepInstanceId" =
      .ok (some stepInstanceId) := by
  simp [manualRequest, uuidArgument, Json.text?, Json.member?, castUuid_uuidText]

theorem manualRequest_decision :
    (manualRequest processId stepInstanceId decision reason).text? "decision" = some decision := by
  simp [manualRequest, Json.text?, Json.member?]

theorem meetsManualSchema_iff {measure : String → Nat} (worded : 1 ≤ measure reason)
    (short : measure reason ≤ 500) :
    meetsManualSchema measure (manualRequest processId stepInstanceId decision reason) = true ↔
      decision = "APPROVED" ∨ decision = "REJECTED" := by
  simp [meetsManualSchema, manualRequest, isManualProperty, castUuid_uuidText, worded, short]

theorem DecisionOutcome.ofText?_isSome :
    (DecisionOutcome.ofText? decision).isSome = true ↔
      decision = "APPROVED" ∨ decision = "REJECTED" := by
  unfold DecisionOutcome.ofText?
  split <;> simp_all

end Requests

/-! The decision on the waiting step. -/

section Waiting

variable {db : Db} {process : Process} {step : StepInstance} {outcome reason : String}
  {principal : Option String}

theorem advance_enters {enter : EnterStep} {processId : Nat} {outcome : Option String}
    {transition : TransitionDefinition}
    (found : db.workflow.process? processId = some process)
    (open_ : process.state = .waitingManual)
    (leads : db.config.transition? process.flowName process.flowVersion process.currentStepKey
      outcome = some transition) :
    advance enter db processId outcome = enter db processId transition.toStepKey := by
  simp only [advance, found, open_, leads, reduceCtorEq, or_self, if_false]

theorem Db.AwaitsOutcome.current (awaits : db.AwaitsOutcome process step outcome)
    (calm : db.Calm) :
    process.currentStepKey = some step.stepKey ∧ process.state = .waitingManual := by
  have found := calm.sound.rows.process? awaits.owner
  obtain ⟨current, _, _, _, state⟩ := (calm.sound.settled process.id).of_waiting found
    (Db.mem_view_steps.mpr ⟨awaits.member, awaits.owns⟩) awaits.waiting
    (by rw [awaits.manual]; simp)
  exact ⟨current, state awaits.manual⟩

theorem Db.AwaitsOutcome.leads (awaits : db.AwaitsOutcome process step outcome) (calm : db.Calm)
    (faithful : db.config.Faithful) :
    ∃ transition next, db.config.transition? process.flowName process.flowVersion
        (some step.stepKey) (some outcome) = some transition ∧
      db.config.stepDefinition? process.flowName process.flowVersion transition.toStepKey =
        some next := by
  obtain ⟨definition, outcomes, defined, listed, inside⟩ := awaits.allowed
  obtain ⟨same, found, type⟩ := calm.sound.rows.definition awaits.member awaits.owner
    awaits.owns.symm
  obtain rfl := Option.some.inj (defined.symm.trans found)
  obtain ⟨transition, leads, inside⟩ := faithful.leads
    (faithful.decides defined (type.trans awaits.manual) listed inside)
  obtain ⟨next, placed⟩ := faithful.defines inside
  exact ⟨transition, next, leads, placed⟩

theorem Db.AwaitsOutcome.run_eq (awaits : db.AwaitsOutcome process step outcome) (calm : db.Calm) :
    ManualCall.run ⟨principal, manualRequest process.id step.id outcome reason⟩ db =
      ManualCall.decide ⟨principal, manualRequest process.id step.id outcome reason⟩ db process
        step := by
  have processFound : ManualCall.process?
      ⟨principal, manualRequest process.id step.id outcome reason⟩ db = some process := by
    simp only [ManualCall.process?, manualRequest_process, manualRequest_step]
    exact calm.sound.rows.process? awaits.owner
  have stepFound : ManualCall.step?
      ⟨principal, manualRequest process.id step.id outcome reason⟩ db = some step := by
    simp only [ManualCall.step?, manualRequest_step]
    exact calm.sound.rows.step? awaits.member
  exact (ManualCall.decide_eq_run processFound stepFound awaits.owns awaits.manual
    awaits.waiting).symm

/-- The messages of the inbox that the step the outcome leads to reads, one for each step waiting
for a receipt that the process enters on the strength of signals stored before. -/
def Db.entryReads (db : Db) (process : Process) (step : StepInstance) (outcome : String) : Nat :=
  match db.config.transition? process.flowName process.flowVersion (some step.stepKey)
      (some outcome) with
  | none => 0
  | some transition =>
      Db.receiptWaits process (db.workflow.signals.length + 1) db transition.toStepKey

/-- None of them is one that `accept_signal` refuses. -/
def Db.Unobstructed (db : Db) (process : Process) (step : StepInstance) (outcome : String) : Prop :=
  db.Spares process.id (db.entryReads process step outcome)

theorem Db.AwaitsOutcome.advance_reads (awaits : db.AwaitsOutcome process step outcome)
    (calm : db.Calm) (posted : db.Posted)
    (undecided : (db.payment.decisions.any fun row => row.stepInstanceId = step.id) = false)
    {decided : DecisionOutcome} (named : DecisionOutcome.ofText? outcome = some decided)
    {transition : TransitionDefinition}
    (leads : db.config.transition? process.flowName process.flowVersion (some step.stepKey)
      (some outcome) = some transition) (reasonHash : Option String) :
    db.Reads process.id (db.entryReads process step outcome)
      (advance (enterStep (recursionBound ((db.insertDecision process.id step.id .manual principal
        reasonHash decided none).completeManual process.id step.id outcome)))
          ((db.insertDecision process.id step.id .manual principal reasonHash decided
            none).completeManual process.id step.id outcome) process.id (some outcome)) := by
  have found := calm.sound.rows.process? awaits.owner
  obtain ⟨current, state⟩ := awaits.current calm
  have begins := @advance_enters ((db.insertDecision process.id step.id .manual principal
    reasonHash decided none).completeManual process.id step.id outcome) process
  have read : Db.Read process.id 0 db ((db.insertDecision process.id step.id .manual principal
      reasonHash decided none).completeManual process.id step.id outcome) :=
    .of_same posted rfl rfl rfl
  have entered := enterStep_reads (recursionBound ((db.insertDecision process.id step.id .manual
    principal reasonHash decided none).completeManual process.id step.id outcome))
      ((db.insertDecision process.id step.id .manual principal reasonHash decided
        none).completeManual process.id step.id outcome) process transition.toStepKey
          (db.workflow.signals.length + 1)
          (Db.decide_rows calm.sound.rows process.id step.id principal reasonHash decided outcome)
          found (fun next placed => (EngineMove.decided principal reasonHash awaits.owner
            awaits.member awaits.owns awaits.manual awaits.waiting named undecided
              (by rw [current]; exact leads) placed).sound calm.sound) read.posted
          (Nat.lt_succ_of_le (List.length_filter_le _ _))
  have count := (@Db.receiptWaits_congr process process ⟨rfl, rfl, rfl⟩
    (db.workflow.signals.length + 1) ((db.insertDecision process.id step.id .manual principal
      reasonHash decided none).completeManual process.id step.id outcome) db rfl rfl).1
        transition.toStepKey
  rw [count] at entered
  rw [Db.entryReads, leads, begins found state (by rw [current]; exact leads)]
  exact .after read entered

/-- Where it does not stand in the way, the process takes its transition. -/
theorem Db.AwaitsOutcome.advances (awaits : db.AwaitsOutcome process step outcome) (calm : db.Calm)
    (faithful : db.config.Faithful) (ruled : db.Ruled)
    (posted : db.Posted) (known : outcome = "APPROVED" ∨ outcome = "REJECTED")
    (unobstructed : db.Unobstructed process step outcome) :
    ∃ later result, ManualCall.run
      ⟨principal, manualRequest process.id step.id outcome reason⟩ db =
        .ok (later, .ok outcome result) := by
  obtain ⟨decided, named⟩ := Option.isSome_iff_exists.mp (DecisionOutcome.ofText?_isSome.mpr known)
  obtain ⟨transition, next, leads, placed⟩ := awaits.leads calm faithful
  have undecided : (db.payment.decisions.any fun row => row.stepInstanceId = step.id) = false := by
    rcases ruled.manual step awaits.member awaits.manual with undecided | ⟨row, ruling⟩
    · have none := undecided.none
      rw [Db.rulings, List.filter_eq_nil_iff] at none
      exact List.any_eq_false.mpr none
    · have completed := ruling.completed
      rw [awaits.waiting] at completed
      cases completed
  have allows : db.Allows (manualRequest process.id step.id outcome reason) = true := by
    obtain ⟨definition, outcomes, defined, listed, inside⟩ := awaits.allowed
    have stepText : (manualRequest process.id step.id outcome reason).text? "stepInstanceId" =
        some (uuidText step.id) := by
      simp [manualRequest, Json.text?, Json.member?]
    simp [Db.Allows, stepText, castUuid_uuidText, calm.sound.rows.step? awaits.member,
      manualRequest_decision, named, awaits.owns, calm.sound.rows.process? awaits.owner, defined,
      listed, inside]
  have stays := @manualV1_stays db calm faithful principal
    (manualRequest process.id step.id outcome reason) allows
  change OnCourse (ManualCall.run ⟨principal, manualRequest process.id step.id outcome reason⟩ db)
    at stays
  rw [awaits.run_eq calm] at stays ⊢
  have bare := (@Db.AwaitsOutcome.advance_reads _ _ _ _ principal awaits calm posted undecided
    decided named transition leads (((manualRequest process.id step.id outcome reason).text?
      "reason").map db.digest)).bare unobstructed
  simp only [ManualCall.decide, decideStep, manualRequest_decision, named, undecided,
    Bool.false_eq_true, if_false] at stays ⊢
  generalize advance _ _ _ _ = advanced at bare stays ⊢
  cases advanced with
  | ok advanced => exact ⟨_, _, rfl⟩
  | error failure =>
      have strays : failure.strays true = true := bare
      cases failure with
      | recursionLimit | unknownStep | unknownOutcome => cases stays
      | _ => cases strays

/-- A decision that succeeds has read no refused message. -/
theorem Db.AwaitsOutcome.unobstructed (awaits : db.AwaitsOutcome process step outcome)
    (calm : db.Calm) (faithful : db.config.Faithful) (posted : db.Posted) {later : Db} {result : Json}
    (returned : ManualCall.run ⟨principal, manualRequest process.id step.id outcome reason⟩ db =
      .ok (later, .ok outcome result)) : db.Unobstructed process step outcome := by
  rw [awaits.run_eq calm] at returned
  obtain ⟨transition, next, leads, placed⟩ := awaits.leads calm faithful
  simp only [ManualCall.decide, decideStep, manualRequest_decision] at returned
  split at returned
  · cases returned
  cases named : DecisionOutcome.ofText? outcome with
  | none =>
      rw [named] at returned
      cases returned
  | some decided =>
      simp only [named] at returned
      split at returned
      · cases returned
      rename_i undecided
      obtain ⟨advanced, first, _⟩ := Runs.bind_eq_ok.mp returned
      exact ((@Db.AwaitsOutcome.advance_reads _ _ _ _ principal awaits calm posted
        (by simpa using undecided) decided named transition leads (((manualRequest process.id step.id
          outcome reason).text? "reason").map db.digest)).returned advanced first).1

end Waiting

/-- A waiting manual step can be decided with APPROVED and REJECTED only, where its map allows them,
and with these exactly where the messages the next steps read on entry are none refused. -/
theorem manual_outcome_decided {config : Config} (published : Published config)
    (clock : Nat → Time) (digest : String → String) (history : List Call)
    (measure : String → Nat) {process : Process} {step : StepInstance} {outcome reason : String}
    (awaits : (reached config clock digest history).db.AwaitsOutcome process step outcome)
    (principal : Option String) (worded : 1 ≤ measure reason) (short : measure reason ≤ 500) :
    let db := (reached config clock digest history).db
    let call : ManualCall := ⟨principal, manualRequest process.id step.id outcome reason⟩
    (call.Decides measure db step outcome ↔
      (outcome = "APPROVED" ∨ outcome = "REJECTED") ∧ db.Unobstructed process step outcome) ∧
    (¬ (outcome = "APPROVED" ∨ outcome = "REJECTED") →
      call.admitted? measure db = none ∧ call.run db = .error .checkViolation) := by
  intro db call
  have calm := (@reached_steady config clock digest history).calm
  have ruled := reached_ruled config clock digest history
  have posted := reached_posted config clock digest history
  have faithful : db.config.Faithful := by
    rw [reached_config]
    exact published.faithful
  have admitted := @meetsManualSchema_iff process.id step.id outcome reason measure worded short
  have refuses : ¬ (outcome = "APPROVED" ∨ outcome = "REJECTED") →
      call.admitted? measure db = none := fun other => if_neg fun meets => other (admitted.mp meets)
  refine ⟨⟨?_, ?_⟩, ?_⟩
  · rintro ⟨later, result, row, decided, _⟩
    have known : outcome = "APPROVED" ∨ outcome = "REJECTED" := by
      by_contra other
      rw [refuses other] at decided
      cases decided
    refine ⟨known, ?_⟩
    rw [ManualCall.admitted?, if_pos (admitted.mpr known)] at decided
    exact awaits.unobstructed calm faithful posted (Option.some.inj decided)
  · rintro ⟨known, unobstructed⟩
    obtain ⟨later, result, ran⟩ := @Db.AwaitsOutcome.advances _ _ _ _ reason principal awaits calm
      faithful ruled posted known unobstructed
    have decided := awaits.run_eq calm ▸ ran
    rcases ManualCall.decide_cases calm awaits.owner awaits.member awaits.owns awaits.manual
        awaits.waiting decided with ⟨_, code, message, other⟩ | ⟨decision, other, same, commits⟩
    · cases other
    cases same
    obtain ⟨row, shows⟩ := commits.shows calm ruled
      (by simp [ManualCall.named?, manualRequest, Json.text?, Json.member?, castUuid_uuidText])
      (by simp [manualRequest, Json.text?, Json.member?, castUuid_uuidText])
      awaits.owner awaits.member awaits.owns awaits.manual
    exact ⟨later, result, row, by rw [ManualCall.admitted?, if_pos (admitted.mpr known), ran], shows⟩
  · intro other
    refine ⟨refuses other, ?_⟩
    have unnamed : DecisionOutcome.ofText? outcome = none := by
      rw [← Option.not_isSome_iff_eq_none, DecisionOutcome.ofText?_isSome]
      exact other
    change ManualCall.run ⟨principal, manualRequest process.id step.id outcome reason⟩ db = _
    rw [awaits.run_eq calm]
    simp only [ManualCall.decide, decideStep, manualRequest_decision, unnamed]

namespace Seed

def gate (outcome : String) : FlowMap where
  contractVersion := "course-1"
  flowName := "gate"
  version := 1
  startStep := "review"
  steps := [manual "review" [outcome], finish "done" "COMPLETED"]
  transitions := [⟨"review", outcome, "done"⟩]

def gated (outcome : String) : Config := publish blank (gate outcome, true)

def gatedStart : List Call := [.startProcess "gate" "first" (.object [])]

def gatedProcess : Process :=
  ⟨0, "gate", 1, "first", .waitingManual, some "review", .object []⟩

def gatedStep : StepInstance := ⟨1, 0, "review", .manual, .waiting, none, (0 : Int)⟩

theorem gated_published {outcome : String} (schema : (gate outcome).matchesSchema = true)
    (valid : validateSemantics actionCatalog (gate outcome) = .ok ()) :
    Published (gated outcome) := by
  have empty : Published blank := .blank rfl rfl rfl rfl (by decide +kernel)
  have accepted : (gate outcome).Accepted blank.actionCatalog := ⟨schema, valid⟩
  exact (@publish_published blank empty (gate outcome, true) accepted).1

end Seed

theorem manual_outcome_decided_approved :
    ManualCall.Decides ⟨some "reviewer", manualRequest 0 1 "APPROVED" "checked"⟩ String.length
      (reached (Seed.gated "APPROVED") (fun tick => (tick : Int)) id Seed.gatedStart).db
        Seed.gatedStep "APPROVED" := by
  have awaits : (reached (Seed.gated "APPROVED") (fun tick => (tick : Int)) id
      Seed.gatedStart).db.AwaitsOutcome Seed.gatedProcess Seed.gatedStep "APPROVED" :=
    ⟨by decide +kernel, by decide +kernel, rfl, rfl, rfl,
      ⟨"gate", 1, "review", .manual, ⟨none, none, some ["APPROVED"]⟩⟩, ["APPROVED"],
      by decide +kernel, rfl, by decide⟩
  have empty : (reached (Seed.gated "APPROVED") (fun tick => (tick : Int)) id
      Seed.gatedStart).db.delivery.inbox = [] := by decide +kernel
  refine (manual_outcome_decided (Seed.gated_published (by decide +kernel) (by decide +kernel)) _ _ _
    String.length awaits (some "reviewer") (by decide) (by decide)).1.mpr ⟨.inl rfl, ?_⟩
  intro message member
  have inside := (Db.mem_unread.mp (List.mem_of_mem_take member)).1
  rw [empty] at inside
  cases inside

/-- A map whose manual step allows another outcome is accepted, and its process stays there. -/
theorem allowed_outcome_undecided :
    ¬ ∀ (config : Config), Published config → ∀ (history : List Call) (process : Process)
      (step : StepInstance) (outcome reason : String) (principal : Option String),
        (reached config (fun tick => (tick : Int)) id history).db.AwaitsOutcome process step
          outcome → 1 ≤ reason.length → reason.length ≤ 500 →
            ManualCall.Decides ⟨principal, manualRequest process.id step.id outcome reason⟩
              String.length (reached config (fun tick => (tick : Int)) id history).db step outcome := by
  intro always
  have awaits : (reached (Seed.gated "APPROVED_C84C31AD") (fun tick => (tick : Int)) id
      Seed.gatedStart).db.AwaitsOutcome Seed.gatedProcess Seed.gatedStep "APPROVED_C84C31AD" :=
    ⟨by decide +kernel, by decide +kernel, rfl, rfl, rfl,
      ⟨"gate", 1, "review", .manual, ⟨none, none, some ["APPROVED_C84C31AD"]⟩⟩,
      ["APPROVED_C84C31AD"], by decide +kernel, rfl, by decide⟩
  obtain ⟨_, _, _, admitted, _⟩ := always (Seed.gated "APPROVED_C84C31AD")
    (Seed.gated_published (by decide +kernel) (by decide +kernel)) Seed.gatedStart
    Seed.gatedProcess Seed.gatedStep "APPROVED_C84C31AD" "checked" (some "reviewer") awaits
    (by decide) (by decide)
  have refused : meetsManualSchema String.length
      (manualRequest Seed.gatedProcess.id Seed.gatedStep.id "APPROVED_C84C31AD" "checked") =
        false := by decide
  simp only [ManualCall.admitted?, refused, Bool.false_eq_true, if_false] at admitted
  cases admitted

end PaymentWorkflow
