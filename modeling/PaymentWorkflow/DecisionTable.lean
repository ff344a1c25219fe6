import PaymentWorkflow.HistoryTable
import PaymentWorkflow.SystemRuns

/-! The decisions table beside the manual steps: one decision for each step that is over. -/

namespace PaymentWorkflow

def Db.rulings (db : Db) (stepInstanceId : Nat) : List Decision :=
  db.payment.decisions.filter fun row => row.stepInstanceId = stepInstanceId

structure Db.Undecided (db : Db) (step : StepInstance) : Prop where
  waiting : step.state = .waiting
  none : db.rulings step.id = []

structure Db.Decided (db : Db) (step : StepInstance) (row : Decision) : Prop where
  completed : step.state = .completed
  alone : db.rulings step.id = [row]
  source : row.source = .manual
  process : row.processId = step.processId
  outcome : step.outcome.bind DecisionOutcome.ofText? = some row.outcome

structure Db.Ruled (db : Db) : Prop where
  bound : ∀ row ∈ db.payment.decisions, row.stepInstanceId < db.nextId
  manual : ∀ step ∈ db.workflow.steps, step.stepType = .manual →
    db.Undecided step ∨ ∃ row, db.Decided step row

def Db.ManualKept (db later : Db) : Prop :=
  ∀ step ∈ later.workflow.steps, step.stepType = .manual →
    step ∈ db.workflow.steps ∨ (step.state = .waiting ∧ db.nextId ≤ step.id)

namespace Db.ManualKept

variable {first second third db later : Db}

theorem of_eq (same : later.workflow.steps = db.workflow.steps) : ManualKept db later :=
  fun _ member _ => .inl (same ▸ member)

theorem trans (left : ManualKept first second) (bound : first.nextId ≤ second.nextId)
    (right : ManualKept second third) : ManualKept first third := by
  intro step member manual
  rcases right step member manual with old | ⟨waiting, fresh⟩
  · exact left step old manual
  · exact .inr ⟨waiting, Nat.le_trans bound fresh⟩

theorem placeStep (rows : db.Rows) (processId : Nat) (definition : StepDefinition) :
    ManualKept db (db.placeStep processId definition) := by
  intro step member manual
  rw [Db.placeStep_steps _ _ _ rows.stepBound] at member
  rcases List.mem_append.mp member with old | new
  · exact .inl old
  · obtain rfl := List.mem_singleton.mp new
    have type : definition.stepType = .manual := manual
    exact .inr ⟨by simp [Db.placedStep, type, StepType.entryState], Nat.le_refl _⟩

theorem update (rows : db.Rows) {step : StepInstance} (member : step ∈ db.workflow.steps)
    (other : step.stepType ≠ .manual) {change : StepInstance → StepInstance}
    (same : later.workflow.steps =
      Table.update (fun row => row.id = step.id) change db.workflow.steps)
    (keeps : ∀ row, (change row).stepType = row.stepType) :
    ManualKept db later := by
  intro after afterMember manual
  rw [same] at afterMember
  obtain ⟨before, beforeMember, rfl⟩ := Table.mem_update.mp afterMember
  by_cases hit : before.id = step.id
  · obtain rfl := Table.key_unique rows.stepIds beforeMember member hit
    simp only [decide_true, if_true, keeps] at manual
    exact absurd manual other
  · simp only [hit, decide_false, Bool.false_eq_true, if_false]
    exact .inl beforeMember

theorem updateJob (sound : db.Sound) {job : Job} (member : job ∈ db.workflow.jobs)
    (live : job.state.live = true) {change : StepInstance → StepInstance}
    (same : later.workflow.steps =
      Table.update (fun row => row.id = job.stepInstanceId) change db.workflow.steps)
    (keeps : ∀ row, (change row).stepType = row.stepType) :
    ManualKept db later := by
  obtain ⟨_, _, _, step, stepMember, runs, _, _, _, automatic, _, _⟩ := sound.running member live
  rw [← runs] at same
  exact update sound.rows stepMember (by rw [automatic]; nofun) same keeps

end Db.ManualKept

section Rules

variable {db later : Db}

theorem Db.rulings_congr (same : later.payment.decisions = db.payment.decisions) (id : Nat) :
    later.rulings id = db.rulings id := by
  rw [Db.rulings, Db.rulings, same]

theorem Db.Ruled.rulings_fresh (ruled : db.Ruled) {id : Nat} (fresh : db.nextId ≤ id) :
    db.rulings id = [] := by
  rw [Db.rulings, List.filter_eq_nil_iff]
  intro row member same
  have bound := ruled.bound row member
  have equal : row.stepInstanceId = id := of_decide_eq_true same
  omega

theorem Db.Ruled.of_kept (ruled : db.Ruled) (kept : db.ManualKept later)
    (decisions : later.payment.decisions = db.payment.decisions) (bound : db.nextId ≤ later.nextId) :
    later.Ruled where
  bound := by
    rw [decisions]
    exact fun row member => Nat.lt_of_lt_of_le (ruled.bound row member) bound
  manual := by
    intro step member manual
    have rulings := Db.rulings_congr decisions step.id
    rcases kept step member manual with old | ⟨waiting, fresh⟩
    · rcases ruled.manual step old manual with undecided | ⟨row, decided⟩
      · exact .inl ⟨undecided.waiting, rulings.trans undecided.none⟩
      · exact .inr ⟨row, { decided with alone := rulings.trans decided.alone }⟩
    · exact .inl ⟨waiting, rulings.trans (ruled.rulings_fresh fresh)⟩

theorem Db.rulings_insertDecision (db : Db) (processId stepInstanceId : Nat)
    (source : DecisionSource) (principal reasonHash : Option String) (outcome : DecisionOutcome)
    (ruleVersion : Option String) (id : Nat) :
    (db.insertDecision processId stepInstanceId source principal reasonHash outcome
      ruleVersion).rulings id = db.rulings id ++ if stepInstanceId = id then
        [⟨db.nextId, processId, stepInstanceId, source, principal, reasonHash, outcome,
          ruleVersion⟩] else [] := by
  rw [Db.rulings, Db.insertDecision_payment_decisions, List.filter_append]
  by_cases same : stepInstanceId = id <;> simp [Db.rulings, same]

/-- A decision recorded for a step that is not a manual one, or that is completed with it. -/
theorem Db.Ruled.decide (ruled : db.Ruled) (rows : db.Rows) {step : StepInstance} {decision : String}
    {outcome : DecisionOutcome} (principal reasonHash : Option String)
    (member : step ∈ db.workflow.steps) (waiting : step.state = .waiting)
    (manual : step.stepType = .manual) (known : DecisionOutcome.ofText? decision = some outcome) :
    ((db.insertDecision step.processId step.id .manual principal reasonHash outcome
      none).completeManual step.processId step.id decision).Ruled where
  bound := by
    intro row rowMember
    rcases List.mem_append.mp rowMember with old | new
    · exact Nat.lt_succ_of_lt (ruled.bound row old)
    · obtain rfl := List.mem_singleton.mp new
      exact Nat.lt_succ_of_lt (rows.stepBound step member)
  manual := by
    intro after afterMember afterManual
    obtain ⟨before, beforeMember, rfl⟩ := Table.mem_update.mp afterMember
    have rulings : ∀ id, ((db.insertDecision step.processId step.id .manual principal reasonHash
        outcome none).completeManual step.processId step.id decision).rulings id =
          db.rulings id ++ if step.id = id then
            [⟨db.nextId, step.processId, step.id, .manual, principal, reasonHash, outcome, none⟩]
              else [] := fun id => db.rulings_insertDecision _ _ _ _ _ _ _ id
    by_cases hit : before.id = step.id
    · obtain rfl := Table.key_unique rows.stepIds beforeMember member hit
      have unruled : db.rulings before.id = [] := by
        rcases ruled.manual before member manual with undecided | ⟨_, decided⟩
        · exact undecided.none
        · rw [decided.completed] at waiting
          cases waiting
      simp only [decide_true, if_true]
      refine .inr ⟨⟨db.nextId, before.processId, before.id, .manual, principal, reasonHash, outcome,
        none⟩, rfl, (rulings before.id).trans ?_, rfl, rfl, known⟩
      rw [unruled, if_pos rfl]
      rfl
    · simp only [hit, decide_false, Bool.false_eq_true, if_false] at afterManual ⊢
      have same := rulings before.id
      rw [if_neg (Ne.symm hit), List.append_nil] at same
      rcases ruled.manual before beforeMember afterManual with undecided | ⟨row, decided⟩
      · exact .inl ⟨undecided.waiting, same.trans undecided.none⟩
      · exact .inr ⟨row, { decided with alone := same.trans decided.alone }⟩

theorem Db.Ruled.placeStep (ruled : db.Ruled) (rows : db.Rows) (processId : Nat)
    (definition : StepDefinition) : (db.placeStep processId definition).Ruled :=
  ruled.of_kept (.placeStep rows processId definition) (by rw [Db.placeStep_payment])
    (Db.nextId_le_placeStep (Nat.le_refl _))

theorem EngineMove.ruled {processId : Nat} (move : EngineMove processId db later)
    (sound : db.Sound) (ruled : db.Ruled) : later.Ruled := by
  have rows := sound.rows
  have bound := move.nextId_le
  cases move with
  | ticked => exact ruled.of_kept (.of_eq rfl) rfl bound
  | swept => exact ruled.of_kept (.of_eq rfl) rfl bound
  | applied => exact ruled.of_kept (.of_eq rfl) rfl bound
  | stored => exact ruled.of_kept (.of_eq rfl) rfl bound
  | retried => exact ruled.of_kept (.of_eq rfl) rfl bound
  | @started _ flowName businessKey data version definition absent active defined =>
      refine Db.Ruled.placeStep ?_ (Db.startRows rows flowName version.version businessKey data) _ _
      exact ruled.of_kept (.of_eq rfl) rfl (Nat.le_succ _)
  | signalled owner member owns waits waiting =>
      refine Db.Ruled.placeStep ?_ (Db.consumeSignal_rows rows _ _ _ _) _ _
      exact ruled.of_kept (.update rows member (by rw [waits]; nofun) rfl fun _ => rfl) rfl
        (Nat.le_refl _)
  | leased owner leaseMs member live =>
      exact ruled.of_kept (.updateJob sound member live rfl fun _ => rfl) rfl bound
  | @disabled _ job row attemptId member live same =>
      refine ruled.of_kept (@Db.ManualKept.updateJob _ _ sound row member (by rw [live]; rfl)
        (fun step => { step with state := .failed }) ?_ fun _ => rfl) rfl bound
      rw [(Db.same_keys same).2.2]
      rfl
  | finished member held =>
      refine Db.Ruled.placeStep ?_ (Db.completeJob_rows rows _ _ _) _ _
      exact ruled.of_kept (.updateJob sound member (by rw [(held_leased held).1]; rfl)
        rfl fun _ => rfl) rfl (Nat.le_refl _)
  | died errorCode member held =>
      exact ruled.of_kept (.updateJob sound member (by rw [(held_leased held).1]; rfl)
        rfl fun _ => rfl) rfl bound
  | decided principal reasonHash processMember member owns manual waiting known =>
      refine Db.Ruled.placeStep ?_ (Db.decide_rows rows _ _ _ _ _ _) _ _
      rw [← owns]
      exact ruled.decide rows principal reasonHash member waiting manual known

theorem EngineMoves.ruled {processId : Nat} (moves : EngineMoves processId db later)
    (sound : db.Sound) (ruled : db.Ruled) : later.Ruled := by
  induction moves with
  | refl => exact ruled
  | tail earlier move ih => exact move.ruled (EngineMoves.sound earlier sound) ih

/-- The course limit decides a step that runs, so no manual one. -/
theorem OutsideMove.ruled (move : OutsideMove db later) (sound : db.Sound) (ruled : db.Ruled) :
    later.Ruled := by
  have bound := move.nextId_le
  cases move with
  | @limitDecided operation processId step member pinned within running undecided =>
      obtain ⟨process, _, first⟩ := Option.bind_eq_some_iff.mp running
      have inside := List.mem_filter.mp (Table.first_mem first)
      have state := (of_decide_eq_true inside.2).2.1
      have rulings : ∀ other ∈ db.workflow.steps, other.stepType = .manual →
          (db.insertDecision processId step.id .limitRule none none .approved
            (some "course-limit-v1")).rulings other.id = db.rulings other.id := by
        intro other otherMember manual
        rw [Db.rulings_insertDecision, if_neg, List.append_nil]
        intro same
        obtain rfl := Table.key_unique sound.rows.stepIds inside.1 otherMember same
        rcases ruled.manual step inside.1 manual with undecided | ⟨_, decided⟩
        · rw [undecided.waiting] at state
          rcases state with state | state <;> cases state
        · rw [decided.completed] at state
          rcases state with state | state <;> cases state
      refine ⟨?_, ?_⟩
      · intro row rowMember
        rcases List.mem_append.mp rowMember with old | new
        · exact Nat.lt_succ_of_lt (ruled.bound row old)
        · obtain rfl := List.mem_singleton.mp new
          exact Nat.lt_succ_of_lt (sound.rows.stepBound step inside.1)
      · intro other otherMember manual
        have same := rulings other otherMember manual
        rcases ruled.manual other otherMember manual with undecided | ⟨row, decided⟩
        · exact .inl ⟨undecided.waiting, same.trans undecided.none⟩
        · exact .inr ⟨row, { decided with alone := same.trans decided.alone }⟩
  | _ => exact ruled.of_kept (.of_eq rfl) rfl bound

/-! A decision names a step that is there. -/

def Db.Referred (db : Db) : Prop :=
  ∀ row ∈ db.payment.decisions, ∃ step ∈ db.workflow.steps, step.id = row.stepInstanceId

theorem Db.Referred.kept (referred : db.Referred) (kept : db.Kept later) :
    ∀ row ∈ db.payment.decisions, ∃ step ∈ later.workflow.steps, step.id = row.stepInstanceId := by
  intro row member
  obtain ⟨step, stepMember, same⟩ := referred row member
  obtain ⟨after, afterMember, fixed⟩ := kept.step stepMember
  simp only [StepInstance.fixed, StepInstance.mk.injEq] at fixed
  exact ⟨after, afterMember, fixed.1.trans same⟩

theorem EngineMove.referred {processId : Nat} (move : EngineMove processId db later)
    (rows : db.Rows) (referred : db.Referred) : later.Referred := by
  have kept := move.kept rows
  have old := referred.kept kept
  cases move with
  | started | signalled | finished =>
      rw [Db.Referred, Db.placeStep_payment]
      exact old
  | decided principal reasonHash processMember member =>
      rw [Db.Referred, Db.placeStep_payment]
      intro row rowMember
      rcases List.mem_append.mp rowMember with before | new
      · exact old row before
      · obtain rfl := List.mem_singleton.mp new
        obtain ⟨after, afterMember, fixed⟩ := kept.step member
        simp only [StepInstance.fixed, StepInstance.mk.injEq] at fixed
        exact ⟨after, afterMember, fixed.1⟩
  | _ => exact old

theorem EngineMoves.referred {processId : Nat} (moves : EngineMoves processId db later)
    (sound : db.Sound) (referred : db.Referred) : later.Referred := by
  induction moves with
  | refl => exact referred
  | tail earlier move ih => exact move.referred (EngineMoves.sound earlier sound).rows ih

theorem OutsideMove.referred (move : OutsideMove db later) (referred : db.Referred) :
    later.Referred := by
  have same := move.workflow_eq
  cases move with
  | limitDecided member pinned within running =>
      obtain ⟨process, _, first⟩ := Option.bind_eq_some_iff.mp running
      intro row rowMember
      rcases List.mem_append.mp rowMember with before | new
      · exact referred row before
      · obtain rfl := List.mem_singleton.mp new
        exact ⟨_, (List.mem_filter.mp (Table.first_mem first)).1, rfl⟩
  | _ => exact referred

end Rules

theorem reached_referred (config : Config) (clock : Nat → Time) (digest : String → String)
    (calls : List Call) : (reached config clock digest calls).db.Referred := by
  refine reached_invariant Db.Referred (fun sound _ referred move => move.referred sound.rows referred)
    (fun _ _ referred move => move.referred referred) ?_ (by simp [Db.Referred, Db.initial]) calls
  intro target operation before after _ _ referred move
  cases move
  exact referred

theorem reached_ruled (config : Config) (clock : Nat → Time) (digest : String → String)
    (calls : List Call) : (reached config clock digest calls).db.Ruled := by
  refine reached_invariant Db.Ruled (fun sound _ ruled move => move.ruled sound ruled)
    (fun sound _ ruled move => move.ruled sound ruled) ?_ ?_ calls
  · intro target operation before after _ _ ruled move
    cases move
    exact ruled.of_kept (.of_eq rfl) rfl (Nat.le_refl _)
  · constructor <;> simp [Db.initial]

end PaymentWorkflow
