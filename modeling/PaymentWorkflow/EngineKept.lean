import PaymentWorkflow.EngineSteps

/-! Rows stay, and the columns that are written once stay as they were. -/

namespace PaymentWorkflow

structure Fixed.Within (fixed later : Fixed) : Prop where
  processes : fixed.processes ⊆ later.processes
  steps : fixed.steps ⊆ later.steps
  jobs : fixed.jobs ⊆ later.jobs

namespace Fixed.Within

theorem refl (fixed : Fixed) : Within fixed fixed :=
  ⟨List.Subset.refl _, List.Subset.refl _, List.Subset.refl _⟩

theorem of_eq {fixed later : Fixed} (same : later = fixed) : Within fixed later := same ▸ refl _

theorem trans {first second third : Fixed} (left : Within first second)
    (right : Within second third) : Within first third :=
  ⟨List.Subset.trans left.processes right.processes, List.Subset.trans left.steps right.steps,
    List.Subset.trans left.jobs right.jobs⟩

end Fixed.Within

abbrev Db.Kept (db later : Db) : Prop := Fixed.Within db.fixed later.fixed

namespace Db.Kept

variable {db later : Db}

theorem process (kept : db.Kept later) {process : Process}
    (member : process ∈ db.workflow.processes) :
    ∃ after ∈ later.workflow.processes, after.fixed = process.fixed :=
  List.mem_map.mp (kept.processes (List.mem_map_of_mem member))

theorem step (kept : db.Kept later) {step : StepInstance} (member : step ∈ db.workflow.steps) :
    ∃ after ∈ later.workflow.steps, after.fixed = step.fixed :=
  List.mem_map.mp (kept.steps (List.mem_map_of_mem member))

theorem job (kept : db.Kept later) {job : Job} (member : job ∈ db.workflow.jobs) :
    ∃ after ∈ later.workflow.jobs, after.fixed = job.fixed :=
  List.mem_map.mp (kept.jobs (List.mem_map_of_mem member))

end Db.Kept

theorem Db.kept_placeStep {db : Db} (rows : db.Rows) (processId : Nat)
    (definition : StepDefinition) : db.Kept (db.placeStep processId definition) := by
  rw [Db.Kept, Db.fixed_placeStep rows.stepBound]
  exact ⟨List.Subset.refl _, List.subset_append_left _ _, List.subset_append_left _ _⟩

theorem EngineMove.kept {processId : Nat} {db later : Db} (move : EngineMove processId db later)
    (rows : db.Rows) : db.Kept later := by
  cases move with
  | ticked => exact .refl _
  | swept => exact .refl _
  | applied => exact .refl _
  | @started _ flowName businessKey data version definition absent active defined =>
      refine Fixed.Within.trans ?_ (Db.kept_placeStep (Db.startRows rows _ _ _ _) _ _)
      rw [Db.fixed_insertEvent, Db.fixed_insertProcess]
      exact ⟨List.subset_append_left _ _, List.Subset.refl _, List.Subset.refl _⟩
  | stored =>
      rw [Db.Kept, Db.fixed_insertEvent, Db.fixed_insertSignal]
      exact ⟨List.Subset.refl _, List.Subset.refl _, List.Subset.refl _⟩
  | signalled =>
      exact (Fixed.Within.of_eq Db.fixed_consumeSignal).trans
        (Db.kept_placeStep (Db.consumeSignal_rows rows _ _ _ _) _ _)
  | leased => exact .of_eq Db.fixed_leaseJob
  | disabled => exact .of_eq Db.fixed_buryJob
  | finished =>
      exact (Fixed.Within.of_eq Db.fixed_completeJob).trans
        (Db.kept_placeStep (Db.completeJob_rows rows _ _ _) _ _)
  | retried => exact .of_eq Db.fixed_scheduleRetry
  | died => exact .of_eq Db.fixed_buryJob
  | decided =>
      exact (Fixed.Within.of_eq Db.fixed_completeManual).trans
        (Db.kept_placeStep (Db.decide_rows rows _ _ _ _ _ _) _ _)

theorem EngineMoves.kept {processId : Nat} {db later : Db} (moves : EngineMoves processId db later)
    (sound : db.Sound) : db.Kept later := by
  induction moves with
  | refl => exact .refl _
  | tail earlier move ih => exact ih.trans (move.kept (EngineMoves.sound earlier sound).rows)

theorem Fixed.signals_of_eq {fixed later : Fixed} (same : later = fixed) :
    fixed.signals ⊆ later.signals := same ▸ List.Subset.refl _

theorem Db.signals_placeStep {db : Db} (rows : db.Rows) (processId : Nat)
    (definition : StepDefinition) :
    (db.placeStep processId definition).fixed.signals = db.fixed.signals := by
  rw [Db.fixed_placeStep rows.stepBound]

theorem EngineMove.signals_kept {processId : Nat} {db later : Db}
    (move : EngineMove processId db later) (rows : db.Rows) :
    db.fixed.signals ⊆ later.fixed.signals := by
  cases move with
  | ticked => exact List.Subset.refl _
  | swept => exact List.Subset.refl _
  | applied => exact List.Subset.refl _
  | started =>
      rw [Db.signals_placeStep (Db.startRows rows _ _ _ _), Db.fixed_insertEvent,
        Db.fixed_insertProcess]
      exact List.Subset.refl _
  | stored =>
      rw [Db.fixed_insertEvent, Db.fixed_insertSignal]
      exact List.subset_append_left _ _
  | signalled =>
      rw [Db.signals_placeStep (Db.consumeSignal_rows rows _ _ _ _), Db.fixed_consumeSignal]
      exact List.Subset.refl _
  | leased => exact Fixed.signals_of_eq Db.fixed_leaseJob
  | disabled => exact Fixed.signals_of_eq Db.fixed_buryJob
  | finished =>
      rw [Db.signals_placeStep (Db.completeJob_rows rows _ _ _), Db.fixed_completeJob]
      exact List.Subset.refl _
  | retried => exact Fixed.signals_of_eq Db.fixed_scheduleRetry
  | died => exact Fixed.signals_of_eq Db.fixed_buryJob
  | decided =>
      rw [Db.signals_placeStep (Db.decide_rows rows _ _ _ _ _ _), Db.fixed_completeManual]
      exact List.Subset.refl _

theorem EngineMoves.signals_kept {processId : Nat} {db later : Db}
    (moves : EngineMoves processId db later) (sound : db.Sound) :
    db.fixed.signals ⊆ later.fixed.signals := by
  induction moves with
  | refl => exact List.Subset.refl _
  | tail earlier move ih =>
      exact List.Subset.trans ih (move.signals_kept (EngineMoves.sound earlier sound).rows)

end PaymentWorkflow
