import PaymentWorkflow.AttemptTable
import PaymentWorkflow.EngineKept

/-!
The history of one job, kept in the statuses of its attempts, and the steps whose outcome is
settled.
-/

namespace PaymentWorkflow

structure JobHistory (rows : List Attempt) (job : Job) : Prop where
  numbers : rows.map Attempt.attemptNumber = List.range' 1 job.attemptCount
  leases : ∀ row ∈ rows, row.leaseVersion = row.attemptNumber
  version : job.leaseVersion = job.attemptCount
  running : ∀ row ∈ rows, row.status = .running →
    job.state = .leased ∧ row.leaseVersion = job.leaseVersion
  succeeded : ∀ row ∈ rows, row.status = .succeeded → job.state = .succeeded
  failed : job.state = .retryWait ∨ job.state = .dead →
    ∃ row ∈ rows, row.attemptNumber = job.attemptCount ∧ row.status = .failed

namespace JobHistory

variable {rows : List Attempt} {job : Job}

theorem unclaimed (count : job.attemptCount = 0) (version : job.leaseVersion = 0)
    (ready : job.state = .ready) : JobHistory [] job := by
  constructor <;> simp [count, version, ready]

theorem leaseVersions (history : JobHistory rows job) :
    rows.map Attempt.leaseVersion = List.range' 1 job.attemptCount := by
  rw [← history.numbers]
  exact List.map_congr_left history.leases

theorem unique (history : JobHistory rows job) : (rows.map Attempt.leaseVersion).Nodup := by
  rw [history.leaseVersions]
  exact List.nodup_range'

theorem oneRunning (history : JobHistory rows job) (owned : ∀ row ∈ rows, row.jobId = job.id) :
    rows.countP (fun row => row.status = .running) ≤ 1 := by
  refine Nat.le_trans (List.countP_mono_left fun row member running => ?_)
    (countP_runsUnder_le history.unique job.id (some (job.leaseVersion : Int)))
  simp only [decide_eq_true_eq] at running
  simp [Attempt.runsUnder, owned row member, running, (history.running row member running).2]

theorem lease (history : JobHistory rows job) (quiet : ∀ row ∈ rows, row.status ≠ .running)
    (live : job.state.live = true) {attempt : Attempt} {after : Job}
    (number : attempt.attemptNumber = job.attemptCount + 1)
    (opened : attempt.leaseVersion = job.leaseVersion + 1) (runs : attempt.status = .running)
    (state : after.state = .leased) (count : after.attemptCount = job.attemptCount + 1)
    (version : after.leaseVersion = job.leaseVersion + 1) :
    JobHistory (rows ++ [attempt]) after where
  numbers := by
    rw [List.map_append, history.numbers, count, List.range'_1_concat]
    simp [number, Nat.add_comm]
  leases := by
    intro row member
    rcases List.mem_append.mp member with old | new
    · exact history.leases row old
    · simp only [List.mem_singleton] at new
      rw [new, opened, number, history.version]
  version := by rw [version, count, history.version]
  running := by
    intro row member running
    rcases List.mem_append.mp member with old | new
    · exact absurd running (quiet row old)
    · simp only [List.mem_singleton] at new
      exact ⟨state, by rw [new, opened, version]⟩
  succeeded := by
    intro row member done
    rcases List.mem_append.mp member with old | new
    · have ended := history.succeeded row old done
      rw [ended] at live
      simp [JobState.live] at live
    · simp only [List.mem_singleton] at new
      rw [new, runs] at done
      simp at done
  failed := by simp [state]

theorem settle (history : JobHistory rows job) {matched : Attempt → Bool}
    {change : Attempt → Attempt} {status : AttemptStatus} {after : Job}
    (stable : ∀ row, (change row).fixed = row.fixed) (sets : ∀ row, (change row).status = status)
    (final : status ≠ .running) (runs : ∀ row ∈ rows, matched row = true → row.status = .running)
    (count : after.attemptCount = job.attemptCount) (version : after.leaseVersion = job.leaseVersion)
    (left : ∀ row ∈ rows, row.status = .running → matched row = false → after.state = .leased)
    (succeeded : status = .succeeded ∨ job.state = .succeeded → after.state = .succeeded)
    (failed : after.state = .retryWait ∨ after.state = .dead →
      (job.state = .retryWait ∨ job.state = .dead) ∨ (status = .failed ∧
        ∃ row ∈ rows, matched row = true ∧ row.attemptNumber = job.attemptCount)) :
    JobHistory (Table.update matched change rows) after := by
  have keys : ∀ row, (change row).attemptNumber = row.attemptNumber ∧
      (change row).leaseVersion = row.leaseVersion := by
    intro row
    have same := stable row
    simp only [Attempt.fixed, Attempt.mk.injEq] at same
    exact ⟨same.2.2.2.2.1, same.2.2.2.1⟩
  refine ⟨?_, ?_, by rw [version, count, history.version], ?_, ?_, ?_⟩
  · rw [Table.map_update _ _ _ fun row => (keys row).1, history.numbers, count]
  · intro row member
    obtain ⟨old, inside, rfl⟩ := Table.mem_update.mp member
    have same := history.leases old inside
    split
    · rw [(keys old).1, (keys old).2, same]
    · exact same
  · intro row member running
    obtain ⟨old, inside, rfl⟩ := Table.mem_update.mp member
    by_cases hit : matched old = true
    · simp only [hit, if_true, sets] at running
      exact absurd running final
    · simp only [hit] at running ⊢
      obtain ⟨_, same⟩ := history.running old inside running
      exact ⟨left old inside running (by simpa using hit), by rw [version]; exact same⟩
  · intro row member done
    obtain ⟨old, inside, rfl⟩ := Table.mem_update.mp member
    by_cases hit : matched old = true
    · simp only [hit, if_true, sets] at done
      exact succeeded (.inl done)
    · simp only [hit] at done
      exact succeeded (.inr (history.succeeded old inside done))
  · intro state
    rw [count]
    rcases failed state with before | ⟨fails, row, inside, hit, number⟩
    · obtain ⟨row, inside, number, status⟩ := history.failed before
      refine ⟨row, Table.mem_update.mpr ⟨row, inside, ?_⟩, number, status⟩
      have missed : matched row ≠ true := by
        intro hit
        rw [runs row inside hit] at status
        simp at status
      simp [missed]
    · refine ⟨change row, Table.mem_update.mpr ⟨row, inside, by simp [hit]⟩, ?_, ?_⟩
      · rw [(keys row).1, number]
      · rw [sets, fails]

theorem latest (history : JobHistory rows job) {row : Attempt} (member : row ∈ rows)
    (running : row.status = .running) : row.attemptNumber = job.attemptCount := by
  have version := (history.running row member running).2
  rw [← history.leases row member, version, history.version]

end JobHistory

/-! A step that has completed is never written again. -/

def Db.StepsClosed (db later : Db) : Prop :=
  ∀ step ∈ db.workflow.steps, step.state = .completed → step ∈ later.workflow.steps

namespace Db.StepsClosed

variable {first second third db later : Db}

theorem of_eq (same : later.workflow.steps = db.workflow.steps) : StepsClosed db later :=
  fun _ member _ => same ▸ member

theorem trans (left : StepsClosed first second) (right : StepsClosed second third) :
    StepsClosed first third :=
  fun step member completed => right step (left step member completed) completed

theorem placeStep (rows : db.Rows) (processId : Nat) (definition : StepDefinition) :
    StepsClosed db (db.placeStep processId definition) := by
  intro step member _
  rw [Db.placeStep_steps _ _ _ rows.stepBound]
  exact List.mem_append_left _ member

theorem update (rows : db.Rows) {step : StepInstance} (member : step ∈ db.workflow.steps)
    (live : step.state.live = true) {change : StepInstance → StepInstance}
    (same : later.workflow.steps =
      Table.update (fun row => row.id = step.id) change db.workflow.steps) :
    StepsClosed db later := by
  intro other otherMember completed
  rw [same]
  refine Table.mem_update.mpr ⟨other, otherMember, ?_⟩
  have different : other.id ≠ step.id := by
    intro equal
    obtain rfl := Table.key_unique rows.stepIds otherMember member equal
    rw [completed] at live
    simp [StepState.live] at live
  simp [different]

theorem updateJob (sound : db.Sound) {job : Job} (member : job ∈ db.workflow.jobs)
    (live : job.state.live = true) {change : StepInstance → StepInstance}
    (same : later.workflow.steps =
      Table.update (fun row => row.id = job.stepInstanceId) change db.workflow.steps) :
    StepsClosed db later := by
  obtain ⟨_, _, _, step, stepMember, runs, _, _, _, _, steps, _⟩ := sound.running member live
  have inside : step ∈ (db.view job.processId).liveSteps := by rw [steps]; simp
  rw [← runs] at same
  exact update sound.rows stepMember (List.mem_filter.mp inside).2 same

end Db.StepsClosed

theorem EngineMove.stepsClosed {processId : Nat} {db later : Db}
    (move : EngineMove processId db later) (sound : db.Sound) : db.StepsClosed later := by
  have rows := sound.rows
  cases move with
  | ticked => exact .of_eq rfl
  | swept => exact .of_eq rfl
  | applied => exact .of_eq rfl
  | stored => exact .of_eq rfl
  | started =>
      refine Db.StepsClosed.trans ?_ (.placeStep (Db.startRows rows _ _ _ _) _ _)
      exact .of_eq rfl
  | signalled owner member owns waits waiting =>
      refine Db.StepsClosed.trans ?_ (.placeStep (Db.consumeSignal_rows rows _ _ _ _) _ _)
      exact .update rows member (by rw [waiting]; rfl) rfl
  | leased owner leaseMs member live => exact .updateJob sound member live rfl
  | @disabled _ job row attemptId member live same =>
      refine @Db.StepsClosed.updateJob _ _ sound row member (by rw [live]; rfl)
        (fun step => { step with state := .failed }) ?_
      rw [(Db.same_keys same).2.2]
      rfl
  | finished member held =>
      refine Db.StepsClosed.trans ?_ (.placeStep (Db.completeJob_rows rows _ _ _) _ _)
      exact .updateJob sound member (by rw [(held_leased held).1]; rfl) rfl
  | retried => exact .of_eq rfl
  | died errorCode member held =>
      exact .updateJob sound member (by rw [(held_leased held).1]; rfl) rfl
  | decided principal reasonHash processMember member owns manual waiting =>
      refine Db.StepsClosed.trans ?_ (.placeStep (Db.decide_rows rows _ _ _ _ _ _) _ _)
      exact .update rows member (by rw [waiting]; rfl) rfl

theorem EngineMoves.stepsClosed {processId : Nat} {db later : Db}
    (moves : EngineMoves processId db later) (sound : db.Sound) : db.StepsClosed later := by
  induction moves with
  | refl => exact .of_eq rfl
  | tail earlier move ih => exact ih.trans (move.stepsClosed (EngineMoves.sound earlier sound))

theorem SystemMove.stepsClosed {db later : Db} (move : SystemMove db later) (steady : db.Steady) :
    db.StepsClosed later := by
  rcases move with (⟨processId, reaches⟩ | outside) | ⟨target, operation, close⟩
  · exact reaches.moves.stepsClosed steady.calm.sound
  · exact .of_eq (by rw [outside.workflow_eq])
  · exact .of_eq (by rw [close.workflow_eq])

theorem SystemMoves.stepsClosed {db later : Db} (moves : SystemMoves db later)
    (steady : db.Steady) : db.StepsClosed later := by
  induction moves with
  | refl => exact .of_eq rfl
  | tail earlier move ih =>
      exact ih.trans (SystemMove.stepsClosed move (SystemMoves.steady earlier steady))

end PaymentWorkflow
