import PaymentWorkflow.ClosingProofs
import PaymentWorkflow.DecisionTable
import PaymentWorkflow.EndingProofs
import PaymentWorkflow.EngineWrites
import PaymentWorkflow.ManualCore
import PaymentWorkflow.ProcessLockProofs

/-! A manual step is decided once, by the call whose rows it then has. -/

namespace PaymentWorkflow

open RowLocks

/-! One call on the rows it has read. -/

def ManualCall.named? (call : ManualCall) : Option Nat :=
  (call.payload.text? "stepInstanceId").bind castUuid

/-- What a call that returned ok has left: its decision on the step and in the one decision row,
and the step its transition leads to. -/
structure Db.Shows (db : Db) (call : ManualCall) (decision : String) (step : StepInstance)
    (row : Decision) : Prop where
  named : call.named? = some step.id
  owner : (call.payload.text? "processId").bind castUuid = some step.processId
  text : call.payload.text? "decision" = some decision
  member : step ∈ db.workflow.steps
  manual : step.stepType = .manual
  outcome : step.outcome = some decision
  decided : db.Decided step row
  principal : row.principal = call.principal
  moved : ∃ process ∈ db.workflow.processes, process.id = step.processId ∧
    ∃ transition, db.config.transition? process.flowName process.flowVersion
      (some step.stepKey) (some decision) = some transition ∧
    ∃ entered ∈ db.workflow.steps, entered.processId = step.processId ∧
      entered.stepKey = transition.toStepKey ∧ step.id < entered.id

section Alone

variable {db later : Db} {call : ManualCall} {process : Process} {step : StepInstance}

theorem ManualCall.step?_named (found : call.step? db = some step) :
    call.named? = some step.id ∧ step ∈ db.workflow.steps := by
  unfold ManualCall.step? at found
  split at found
  · rename_i id read
    obtain ⟨id, rfl, looked⟩ := Option.bind_eq_some_iff.mp found
    obtain ⟨member, same⟩ := Table.lookup_mem looked
    exact ⟨by rw [same]; exact (uuidArgument_eq read).symm, member⟩
  · cases found

theorem ManualCall.process?_owner (found : call.process? db = some process) :
    (call.payload.text? "processId").bind castUuid = some process.id ∧
      process ∈ db.workflow.processes := by
  unfold ManualCall.process? at found
  split at found
  · rename_i id stepId read _
    obtain ⟨id, rfl, looked⟩ := Option.bind_eq_some_iff.mp found
    obtain ⟨member, same⟩ := Table.lookup_mem looked
    exact ⟨by rw [same]; exact (uuidArgument_eq read).symm, member⟩
  · cases found

/-- On the rows that are there the statements come to what the function returns. -/
theorem ManualCall.decide_eq_run (processFound : call.process? db = some process)
    (stepFound : call.step? db = some step) (owns : step.processId = process.id)
    (manual : step.stepType = .manual) (waiting : step.state = .waiting) :
    call.decide db process step = call.run db := by
  unfold ManualCall.process? at processFound
  split at processFound
  · rename_i processId stepId processRead stepRead
    simp only [ManualCall.step?, stepRead] at stepFound
    simp only [ManualCall.decide, ManualCall.run, manualV1, processRead, stepRead, bind, Except.bind,
      manualBody, processFound, stepFound, owns, manual, waiting, ne_eq, not_true_eq_false, or_self,
      if_false]
    rfl
  · cases processFound

theorem ManualCall.run_unknown (missing : call.process? db = none) :
    (∃ code message, call.run db = .ok (db, .error code message)) ∨
      ∃ failure, call.run db = .error failure := by
  unfold ManualCall.process? at missing
  simp only [ManualCall.run, manualV1]
  cases processRead : uuidArgument call.payload "processId" with
  | error failure => exact .inr ⟨failure, rfl⟩
  | ok processId =>
      cases stepRead : uuidArgument call.payload "stepInstanceId" with
      | error failure => exact .inr ⟨failure, rfl⟩
      | ok stepId =>
          rw [processRead, stepRead] at missing
          simp only [bind, Except.bind, manualBody, missing]
          exact .inl ⟨_, _, rfl⟩

abbrev ManualCall.record (call : ManualCall) (db : Db) (process : Process) (step : StepInstance)
    (decision : String) (outcome : DecisionOutcome) (reasonHash : Option String) : Db :=
  (db.insertDecision process.id step.id .manual call.principal reasonHash outcome
    none).completeManual process.id step.id decision

structure ManualCall.Commits (call : ManualCall) (process : Process) (step : StepInstance)
    (decision : String) (db later : Db) : Prop where
  text : call.payload.text? "decision" = some decision
  moves : ∃ outcome transition next reasonHash,
    DecisionOutcome.ofText? decision = some outcome ∧
    db.config.transition? process.flowName process.flowVersion (some step.stepKey)
      (some decision) = some transition ∧
    next.stepKey = transition.toStepKey ∧
    EngineMove process.id db
      ((call.record db process step decision outcome reasonHash).placeStep process.id next) ∧
    Db.Reaches process.id
      ((call.record db process step decision outcome reasonHash).placeStep process.id next) later ∧
    later.payment = (call.record db process step decision outcome reasonHash).payment

theorem payment_written : Written fun db later => later.payment = db.payment where
  refl _ := rfl
  trans left right := right.trans left
  placed db processId definition := Db.placeStep_payment db processId definition
  consumed _ _ _ _ _ := rfl
  stored _ _ _ _ _ := rfl
  applied _ _ := rfl

/-- A decision on a waiting manual step is committed whole, or refused and nothing changes. -/
theorem ManualCall.decide_cases (calm : db.Calm) (processMember : process ∈ db.workflow.processes)
    (stepMember : step ∈ db.workflow.steps) (owns : step.processId = process.id)
    (manual : step.stepType = .manual) (waiting : step.state = .waiting) {envelope : Envelope}
    (returned : call.decide db process step = .ok (later, envelope)) :
    (later = db ∧ ∃ code message, envelope = .error code message) ∨
      ∃ decision result, envelope = .ok decision result ∧
        call.Commits process step decision db later := by
  unfold ManualCall.decide at returned
  split at returned
  · cases returned
    exact .inl ⟨rfl, _, _, rfl⟩
  simp only [decideStep] at returned
  split at returned
  · cases returned
  rename_i decision text
  split at returned
  · cases returned
  rename_i outcome known
  split at returned
  · cases returned
  rename_i undecided
  obtain ⟨advanced, first, rest⟩ := Runs.bind_eq_ok.mp returned
  cases rest
  have found := calm.sound.rows.process? processMember
  obtain ⟨current, _, _, _, state⟩ := (calm.sound.settled process.id).of_waiting found
    (Db.mem_view_steps.mpr ⟨stepMember, owns⟩) waiting (by rw [manual]; simp)
  obtain ⟨transition, next, leads, placed, reaches⟩ := @advance_reaches _
    ((db.insertDecision process.id step.id .manual call.principal
      ((call.payload.text? "reason").map db.digest) outcome none).completeManual process.id step.id
        decision) _ _ (enterStep_enters _) _ _ found (by rw [state manual]; simp) first
  have move := EngineMove.decided call.principal ((call.payload.text? "reason").map db.digest)
    processMember stepMember owns manual waiting known (by simpa using undecided) leads placed
  refine .inr ⟨decision, _, rfl, text, outcome, transition, next, _, known, ?_,
    (stepDefinition?_key placed).2.2, move, reaches (Db.decide_rows calm.sound.rows _ _ _ _ _ _)
      (move.sound calm.sound), payment_written.advance (payment_written.enterStep _) first⟩
  rw [← current]
  exact leads

theorem ManualCall.Commits.engineMoves {decision : String}
    (commits : call.Commits process step decision db later) : EngineMoves process.id db later := by
  obtain ⟨_, _, _, _, _, _, _, move, reaches, _⟩ := commits.moves
  exact (Relation.ReflTransGen.single move).trans reaches.moves

theorem Db.Decided.kept {row : Decision} (decided : db.Decided step row)
    (kept : EvidenceKept db later) (ruled : later.Ruled) (member : step ∈ later.workflow.steps)
    (manual : step.stepType = .manual) : later.Decided step row := by
  have inside : row ∈ db.rulings step.id := by
    rw [decided.alone]
    exact List.mem_singleton_self row
  obtain ⟨rowMember, names⟩ := List.mem_filter.mp inside
  rcases ruled.manual step member manual with undecided | ⟨other, same⟩
  · have completed := decided.completed
    rw [undecided.waiting] at completed
    cases completed
  · have stays : row ∈ later.rulings step.id :=
      List.mem_filter.mpr ⟨kept.decisions row rowMember, names⟩
    rw [same.alone, List.mem_singleton] at stays
    exact stays ▸ same

theorem Db.Shows.kept {decision : String} {row : Decision} {owner : Nat}
    (shows : db.Shows call decision step row) (moves : EngineMoves owner db later)
    (sound : db.Sound) (ruled : db.Ruled) : later.Shows call decision step row := by
  have member := moves.stepsClosed sound step shows.member shows.decided.completed
  obtain ⟨process, processMember, owns, transition, leads, entered, enteredMember, enteredOwns, key,
    fresh⟩ := shows.moved
  obtain ⟨after, afterMember, sameProcess⟩ := (moves.kept sound).process processMember
  obtain ⟨last, lastMember, sameStep⟩ := (moves.kept sound).step enteredMember
  obtain ⟨sameId, sameFlow, sameVersion, _⟩ := Process.fixed_columns sameProcess
  simp only [StepInstance.fixed, StepInstance.mk.injEq] at sameStep
  refine { shows with
    member
    decided := shows.decided.kept moves.evidenceKept (moves.ruled sound ruled) member shows.manual
    moved := ⟨after, afterMember, sameId.trans owns, transition, ?_, last, lastMember, ?_, ?_, ?_⟩ }
  · rw [moves.config_eq, sameFlow, sameVersion]
    exact leads
  · rw [sameStep.2.1, enteredOwns]
  · rw [sameStep.2.2.1, key]
  · rw [sameStep.1]
    exact fresh

theorem ManualCall.Commits.shows {decision : String}
    (commits : call.Commits process step decision db later) (calm : db.Calm) (ruled : db.Ruled)
    (named : call.named? = some step.id)
    (owner : (call.payload.text? "processId").bind castUuid = some process.id)
    (processMember : process ∈ db.workflow.processes) (stepMember : step ∈ db.workflow.steps)
    (owns : step.processId = process.id) (manual : step.stepType = .manual) :
    ∃ row, later.Shows call decision { step with state := .completed, outcome := some decision }
      row := by
  obtain ⟨outcome, transition, next, reasonHash, _, leads, key, move, reaches, _⟩ := commits.moves
  have placedRuled := move.ruled calm.sound ruled
  have placedSteps := Db.placeStep_steps (call.record db process step decision outcome reasonHash)
    process.id next (Db.decide_rows calm.sound.rows _ _ _ _ _ _).stepBound
  have recorded : { step with state := .completed, outcome := some decision } ∈
      (call.record db process step decision outcome reasonHash).workflow.steps :=
    Table.mem_update.mpr ⟨step, stepMember, by simp⟩
  have completed := List.mem_append_left
    [(call.record db process step decision outcome reasonHash).placedStep process.id next] recorded
  rw [← placedSteps] at completed
  have entered := List.mem_append_right
    (call.record db process step decision outcome reasonHash).workflow.steps (List.mem_singleton_self
      ((call.record db process step decision outcome reasonHash).placedStep process.id next))
  rw [← placedSteps] at entered
  obtain ⟨after, afterMember, same⟩ := (move.kept calm.sound.rows).process processMember
  obtain ⟨sameId, sameFlow, sameVersion, _⟩ := Process.fixed_columns same
  rcases placedRuled.manual _ completed manual with undecided | ⟨row, decided⟩
  · cases undecided.waiting
  refine ⟨row, Db.Shows.kept ⟨named, by rw [owns]; exact owner, commits.text, completed, manual, rfl,
    decided, ?_, after, afterMember, sameId.trans owns.symm, transition, ?_, _, entered, owns.symm,
    key, ?_⟩ reaches.moves (move.sound calm.sound) placedRuled⟩
  · have inserted : (⟨db.nextId, process.id, step.id, .manual, call.principal, reasonHash, outcome,
        none⟩ : Decision) ∈ ((call.record db process step decision outcome
          reasonHash).placeStep process.id next).rulings step.id := by
      rw [Db.rulings, Db.placeStep_payment]
      exact List.mem_filter.mpr ⟨List.mem_append_right _ (List.mem_singleton_self _), by simp⟩
    have alone := decided.alone
    rw [alone, List.mem_singleton] at inserted
    rw [← inserted]
  · rw [move.config_eq, sameFlow, sameVersion]
    exact leads
  · exact Nat.lt_succ_of_lt (calm.sound.rows.stepBound step stepMember)

end Alone

/-! Any number of calls, taking turns. -/

def Decider.held : Decider → List (RowLocks.Request EngineRow)
  | .idle => []
  | .deciding _ stage => stage.held

theorem decisionProgram_accounts : decisionProgram.Accounts Decider.held where
  releases := by
    intro db party past
    change Decider.ended (party.perform db).2 = true at past
    change Decider.held (party.perform db).2 = []
    generalize (party.perform db).2 = next at past
    rcases next with _ | ⟨_, stage⟩
    · cases past
    · cases stage <;> first | rfl | cases past
  takes := by
    intro db party running
    change Decider.ended (party.perform db).2 = false at running
    change Decider.held (party.perform db).2 = party.held ++ (party.request db).toList
    rcases party with _ | ⟨call, stage⟩
    · rfl
    cases stage with
    | called =>
        simp only [Decider.perform, ManualCall.perform] at running ⊢
        cases found : call.process? db with
        | none =>
            rw [found] at running
            cases running
        | some process =>
            simp [Decider.held, ManualStage.held, Decider.request, ManualStage.request, found]
    | deciding process =>
        simp only [Decider.perform, ManualCall.perform] at running ⊢
        cases found : call.step? db with
        | none =>
            rw [found] at running
            cases running
        | some step =>
            rw [found] at running
            dsimp only at running ⊢
            split
            · simp [Decider.held, ManualStage.held, Decider.request, ManualStage.request, found]
            · rename_i early
              rw [if_neg early] at running
              cases running
    | referring => rfl
    | applying | ended => cases running

structure ManualCall.Holds (call : ManualCall) (db : Db) (process : Process) (step : StepInstance) :
    Prop where
  processFound : call.process? db = some process
  stepFound : call.step? db = some step
  owns : step.processId = process.id
  manual : step.stepType = .manual
  waiting : step.state = .waiting

def EngineReply.Fails : EngineReply → Prop
  | .decided (.error _ _) | .raised _ => True
  | _ => False

def ManualStage.Reads (db : Db) (call : ManualCall) : ManualStage → Prop
  | .called => True
  | .deciding process => call.process? db = some process
  | .referring process step | .applying process step => call.Holds db process step
  | .ended reply => reply.Fails ∨ ∃ decision result, reply = .decided (.ok decision result) ∧
      ∃ step row, db.Shows call decision step row

def Decider.Reads (db : Db) : Decider → Prop
  | .idle => True
  | .deciding call stage => stage.Reads db call

def Decider.won? : Decider → Option Nat
  | .deciding call (.ended (.decided (.ok _ _))) => call.named?
  | _ => none

section Turns

variable {db later : Db} {call : ManualCall} {stage : ManualStage}

/-- One turn of a call: nothing is written, or a decision is committed. -/
theorem ManualCall.perform_cases (calm : db.Calm) (reads : stage.Reads db call) :
    ((call.perform db stage).1 = db ∧ (call.perform db stage).2.Reads db call ∧
      (∀ reply, (call.perform db stage).2 = .ended reply → stage = .ended reply ∨ reply.Fails)) ∨
    ∃ process step decision result, stage = .applying process step ∧ call.Holds db process step ∧
      call.Commits process step decision db (call.perform db stage).1 ∧
      (call.perform db stage).2 = .ended (.decided (.ok decision result)) := by
  cases stage with
  | called =>
      refine .inl ?_
      simp only [ManualCall.perform]
      cases found : call.process? db with
      | some process => exact ⟨rfl, found, by simp⟩
      | none =>
          simp only [ManualStage.conclude]
          rcases call.run_unknown found with ⟨code, message, ran⟩ | ⟨failure, ran⟩
          · rw [ran]
            refine ⟨rfl, .inl trivial, ?_⟩
            rintro reply same
            cases same
            exact .inr trivial
          · rw [ran]
            refine ⟨rfl, .inl trivial, ?_⟩
            rintro reply same
            cases same
            exact .inr trivial
  | deciding process =>
      refine .inl ?_
      have refused : ∀ reply, ManualStage.ended ManualCall.conflict = .ended reply →
          ManualStage.deciding process = .ended reply ∨ reply.Fails := by
        rintro reply same
        cases same
        exact .inr trivial
      simp only [ManualCall.perform]
      cases found : call.step? db with
      | none => exact ⟨rfl, .inl trivial, refused⟩
      | some step =>
          dsimp only
          split
          · rename_i awaits
            exact ⟨rfl, ⟨reads, found, awaits.1, awaits.2.1, awaits.2.2⟩, by simp⟩
          · exact ⟨rfl, .inl trivial, refused⟩
  | referring process step => exact .inl ⟨rfl, reads, by rintro _ ⟨⟩⟩
  | ended reply =>
      refine .inl ⟨rfl, reads, ?_⟩
      rintro other same
      cases same
      exact .inl rfl
  | applying process step =>
      have holds : call.Holds db process step := reads
      simp only [ManualCall.perform]
      cases ran : call.decide db process step with
      | error failure =>
          refine .inl ⟨rfl, .inl trivial, ?_⟩
          rintro reply same
          cases same
          exact .inr trivial
      | ok done =>
          obtain ⟨later, envelope⟩ := done
          rcases call.decide_cases calm (ManualCall.process?_owner holds.processFound).2
              (ManualCall.step?_named holds.stepFound).2 holds.owns holds.manual holds.waiting ran with
            ⟨rfl, code, message, rfl⟩ | ⟨decision, result, rfl, commits⟩
          · refine .inl ⟨rfl, .inl trivial, ?_⟩
            rintro reply same
            cases same
            exact .inr trivial
          · exact .inr ⟨process, step, decision, result, rfl, holds, commits, rfl⟩

/-- The rows of a process that the others leave alone are found again. -/
theorem ManualCall.process?_frame {process : Process} {owner : Nat}
    (found : call.process? db = some process) (moves : EngineMoves owner db later)
    (sound : db.Sound) (different : process.id ≠ owner) : call.process? later = some process := by
  have same := congrArg View.process (moves.frame sound different)
  unfold ManualCall.process? at found ⊢
  split at found
  · obtain ⟨id, rfl, looked⟩ := Option.bind_eq_some_iff.mp found
    have equal : process.id = id := (Table.lookup_mem looked).2
    rw [equal] at same
    exact same.trans looked
  · cases found

theorem ManualCall.Holds.frame {process : Process} {step : StepInstance} {owner : Nat}
    (holds : call.Holds db process step) (moves : EngineMoves owner db later) (sound : db.Sound)
    (different : process.id ≠ owner) : call.Holds later process step := by
  refine { holds with
    processFound := ManualCall.process?_frame holds.processFound moves sound different
    stepFound := ?_ }
  have member := Db.mem_view_steps.mpr ⟨(ManualCall.step?_named holds.stepFound).2, holds.owns⟩
  rw [← moves.frame sound different] at member
  have found := (moves.sound sound).rows.step? (Db.mem_view_steps.mp member).1
  have before := holds.stepFound
  unfold ManualCall.step? at before ⊢
  split at before
  · obtain ⟨id, rfl, looked⟩ := Option.bind_eq_some_iff.mp before
    rw [(Table.lookup_mem looked).2] at found
    exact found
  · cases before

/-- What a call has read stays while others commit: a decision on its process would need the row
it has locked. -/
theorem Decider.Reads.keep {party : Decider} {owner : Nat} (reads : party.Reads db)
    (moves : EngineMoves owner db later) (sound : db.Sound) (ruled : db.Ruled)
    (apart : ⟨.process owner, .update⟩ ∉ party.held) : party.Reads later := by
  cases party with
  | idle => trivial
  | deciding call stage =>
      cases stage with
      | called => trivial
      | deciding process =>
          refine ManualCall.process?_frame reads moves sound ?_
          rintro rfl
          exact apart (by simp [held, ManualStage.held])
      | referring process step | applying process step =>
          refine ManualCall.Holds.frame reads moves sound ?_
          rintro rfl
          exact apart (by simp [held, ManualStage.held])
      | ended reply =>
          rcases reads with fails | ⟨decision, result, same, step, row, shows⟩
          · exact .inl fails
          · exact .inr ⟨decision, result, same, step, row, shows.kept moves sound ruled⟩

theorem Decider.won?_ended {id : Nat} (won : (Decider.deciding call stage).won? = some id) :
    ∃ decision result, stage = .ended (.decided (.ok decision result)) := by
  unfold won? at won
  split at won
  · rename_i same
    cases same
    exact ⟨_, _, rfl⟩
  · cases won

theorem Decider.Reads.won {party : Decider} (reads : party.Reads db) {id : Nat}
    (won : party.won? = some id) :
    ∃ step ∈ db.workflow.steps, step.id = id ∧ step.state = .completed := by
  unfold Decider.won? at won
  split at won
  · rename_i call decision result
    rcases reads with fails | ⟨_, _, _, step, row, shows⟩
    · exact False.elim fails
    · rw [shows.named, Option.some.injEq] at won
      exact ⟨step, shows.member, won, shows.decided.completed⟩
  · cases won

end Turns

/-- Every manual step completed since was completed by the decision. -/
theorem ManualCall.Commits.covers {db later : Db} {call : ManualCall} {process : Process}
    {step : StepInstance} {decision : String} (commits : call.Commits process step decision db later)
    (sound : db.Sound) (ruled : db.Ruled) (referred : db.Referred) {after : StepInstance}
    (member : after ∈ later.workflow.steps) (manual : after.stepType = .manual)
    (completed : after.state = .completed) :
    after.id = step.id ∨ after ∈ db.workflow.steps := by
  have moves := commits.engineMoves
  have laterSound := moves.sound sound
  rcases (moves.ruled sound ruled).manual after member manual with undecided | ⟨row, decided⟩
  · rw [undecided.waiting] at completed
    cases completed
  have inside : row ∈ later.rulings after.id := by
    rw [decided.alone]
    exact List.mem_singleton_self row
  obtain ⟨rowMember, names⟩ := List.mem_filter.mp inside
  have named : row.stepInstanceId = after.id := of_decide_eq_true names
  obtain ⟨outcome, transition, next, reasonHash, _, _, _, _, _, payment⟩ := commits.moves
  rw [payment] at rowMember
  rcases List.mem_append.mp rowMember with old | new
  · obtain ⟨before, beforeMember, same⟩ := referred row old
    obtain ⟨last, lastMember, fixed⟩ := (moves.kept sound).step beforeMember
    simp only [StepInstance.fixed, StepInstance.mk.injEq] at fixed
    obtain rfl := Table.key_unique laterSound.rows.stepIds lastMember member
      (fixed.1.trans (same.trans named))
    have ruling : row ∈ db.rulings before.id :=
      List.mem_filter.mpr ⟨old, decide_eq_true same.symm⟩
    rcases ruled.manual before beforeMember (fixed.2.2.2.1.symm.trans manual) with
      undecided | ⟨_, settled⟩
    · rw [undecided.none] at ruling
      cases ruling
    · have stays := moves.stepsClosed sound before beforeMember settled.completed
      rw [Table.key_unique laterSound.rows.stepIds lastMember stays fixed.1]
      exact .inr beforeMember
  · obtain rfl := List.mem_singleton.mp new
    exact .inl named.symm

structure DecisionServer.Sound (start : Db) (server : DecisionServer) : Prop where
  accounted : server.Accounted Decider.held
  compatible : server.Compatible
  calm : server.shared.Calm
  ruled : server.shared.Ruled
  referred : server.shared.Referred
  reads : ∀ index, (server.party index).Reads server.shared
  once : ∀ left right, left ≠ right → ∀ id, (server.party left).won? = some id →
    (server.party right).won? ≠ some id
  covered : ∀ step ∈ server.shared.workflow.steps, step.stepType = .manual →
    step.state = .completed → step ∈ start.workflow.steps ∨
      ∃ index, (server.party index).won? = some step.id

section Server

variable {start : Db} {server : DecisionServer}

theorem DecisionServer.Sound.turn_cases (sound : DecisionServer.Sound start server) (index : Nat) :
    ((decisionProgram.turn server index).shared = server.shared ∧
      ((decisionProgram.turn server index).party index).Reads server.shared ∧
      (∀ other, other ≠ index →
        (decisionProgram.turn server index).party other = server.party other) ∧
      ∀ id, ((decisionProgram.turn server index).party index).won? = some id ↔
        (server.party index).won? = some id) ∨
    ∃ call process step decision result,
      server.party index = .deciding call (.applying process step) ∧
      call.Holds server.shared process step ∧
      call.Commits process step decision server.shared (decisionProgram.turn server index).shared ∧
      (decisionProgram.turn server index).party index =
        .deciding call (.ended (.decided (.ok decision result))) ∧
      ∀ other, other ≠ index →
        (decisionProgram.turn server index).party other = server.party other := by
  have reads := sound.reads index
  unfold Program.turn
  split
  · rw [Program.proceed_own, Program.proceed_shared]
    have others : ∀ other, other ≠ index →
        (decisionProgram.proceed server index).party other = server.party other :=
      fun other different => Program.proceed_other _ _ _ different
    cases party : server.party index with
    | idle => exact .inl ⟨rfl, trivial, others, fun _ => Iff.rfl⟩
    | deciding call stage =>
        rw [party] at reads
        rcases ManualCall.perform_cases sound.calm reads with
          ⟨same, next, ended⟩ | ⟨process, step, decision, result, rfl, holds, commits, answered⟩
        · refine .inl ⟨same, next, others, ?_⟩
          intro id
          change (Decider.deciding call (call.perform server.shared stage).2).won? = some id ↔
            (Decider.deciding call stage).won? = some id
          cases stage with
          | ended reply => exact Iff.rfl
          | called | deciding | referring | applying =>
              refine iff_of_false (fun won => ?_) (by rintro ⟨⟩)
              obtain ⟨decision, result, answered⟩ := Decider.won?_ended won
              rcases ended _ answered with before | fails
              · cases before
              · exact fails
        · refine .inr ⟨call, process, step, decision, result, rfl, holds, commits, ?_, others⟩
          exact congrArg (Decider.deciding call) answered
  · exact .inl ⟨rfl, reads, fun _ _ => rfl, fun _ => Iff.rfl⟩

theorem DecisionServer.Sound.turn (sound : DecisionServer.Sound start server) (index : Nat) :
    DecisionServer.Sound start (decisionProgram.turn server index) := by
  have accounted := decisionProgram_accounts.turn sound.accounted index
  have compatible := sound.compatible.turn decisionProgram index
  rcases sound.turn_cases index with ⟨same, own, others, won⟩ |
    ⟨call, process, step, decision, result, party, holds, commits, answered, others⟩
  · have wins : ∀ other id, ((decisionProgram.turn server index).party other).won? = some id ↔
        (server.party other).won? = some id := by
      intro other id
      by_cases mine : other = index
      · subst mine
        exact won id
      · rw [others other mine]
    refine ⟨accounted, compatible, same ▸ sound.calm, same ▸ sound.ruled, same ▸ sound.referred,
      ?_, ?_, ?_⟩
    · intro other
      rw [same]
      by_cases mine : other = index
      · subst mine
        exact own
      · rw [others other mine]
        exact sound.reads other
    · intro left right different id
      rw [wins left id, Ne, wins right id]
      exact sound.once left right different id
    · intro step member manual completed
      rw [same] at member
      rcases sound.covered step member manual completed with old | ⟨other, won⟩
      · exact .inl old
      · exact .inr ⟨other, (wins other step.id).mpr won⟩
  · have moves := commits.engineMoves
    have shared := sound.calm.sound
    obtain ⟨named, stepMember⟩ := ManualCall.step?_named holds.stepFound
    obtain ⟨owner, processMember⟩ := ManualCall.process?_owner holds.processFound
    obtain ⟨_, _, _, _, _, _, _, move, reaches, _⟩ := commits.moves
    have won : ((decisionProgram.turn server index).party index).won? = some step.id := by
      rw [answered]
      exact named
    have locked : (⟨.process process.id, .update⟩ : RowLocks.Request EngineRow) ∈
        (server.party index).held := by
      rw [party]
      simp [Decider.held, ManualStage.held]
    -- whoever decided this step before would have completed it
    have fresh : ∀ other, other ≠ index → (server.party other).won? ≠ some step.id := by
      intro other different before
      obtain ⟨old, oldMember, same, completed⟩ := (sound.reads other).won before
      rw [Table.key_unique shared.rows.stepIds oldMember stepMember same, holds.waiting] at completed
      cases completed
    refine ⟨accounted, compatible, (Db.Reaches.after (.single move) reaches).calm sound.calm,
      moves.ruled shared sound.ruled, moves.referred shared sound.referred, ?_, ?_, ?_⟩
    · intro other
      by_cases mine : other = index
      · subst mine
        rw [answered]
        obtain ⟨row, shows⟩ := commits.shows sound.calm sound.ruled named owner processMember
          stepMember holds.owns holds.manual
        exact .inr ⟨decision, result, rfl, _, row, shows⟩
      · rw [others other mine]
        refine (sound.reads other).keep moves shared sound.ruled fun taken => ?_
        have clash := Program.held_compatible sound.accounted sound.compatible mine taken locked rfl
        cases clash
    · intro left right different id leftWon
      by_cases mine : left = index
      · subst mine
        rw [won, Option.some.injEq] at leftWon
        rw [others right different.symm, ← leftWon]
        exact fresh right different.symm
      · rw [others left mine] at leftWon
        by_cases other : right = index
        · subst other
          rw [won]
          rintro same
          rw [← same] at leftWon
          exact fresh left mine leftWon
        · rw [others right other]
          exact sound.once left right different id leftWon
    · intro after member manual completed
      rcases commits.covers shared sound.ruled sound.referred member manual completed with
        same | old
      · exact .inr ⟨index, by rw [won, same]⟩
      · rcases sound.covered after old manual completed with before | ⟨other, earlier⟩
        · exact .inl before
        · refine .inr ⟨other, ?_⟩
          have different : other ≠ index := by
            rintro rfl
            rw [party] at earlier
            cases earlier
          rw [others other different]
          exact earlier

theorem DecisionServer.start_sound (config : Config) (clock : Nat → Time)
    (digest : String → String) (history : List Call) (calls : Nat → Option ManualCall) :
    DecisionServer.Sound (reached config clock digest history).db
      (DecisionServer.start (reached config clock digest history).db calls) := by
  have initial : ∀ index, ((calls index).elim Decider.idle fun call => .deciding call .called) =
      .idle ∨ ∃ call, ((calls index).elim Decider.idle fun call => .deciding call .called) =
        .deciding call .called := by
    intro index
    cases calls index with
    | none => exact .inl rfl
    | some call => exact .inr ⟨call, rfl⟩
  have silent : ∀ index id, ((DecisionServer.start (reached config clock digest history).db
      calls).party index).won? ≠ some id := by
    intro index id won
    change ((calls index).elim Decider.idle fun call => .deciding call .called).won? = some id at won
    rcases initial index with idle | ⟨call, called⟩
    · rw [idle] at won
      cases won
    · rw [called] at won
      cases won
  refine ⟨?_, nofun, (reached_steady history).calm, reached_ruled config clock digest history,
    reached_referred config clock digest history, ?_, ?_, ?_⟩
  · intro lock
    refine iff_of_false List.not_mem_nil ?_
    change lock.toRequest ∉ ((calls lock.owner).elim Decider.idle fun call =>
      .deciding call .called).held
    rcases initial lock.owner with idle | ⟨call, called⟩
    · rw [idle]
      exact List.not_mem_nil
    · rw [called]
      exact List.not_mem_nil
  · intro index
    change ((calls index).elim Decider.idle fun call => .deciding call .called).Reads _
    rcases initial index with idle | ⟨call, called⟩
    · rw [idle]
      trivial
    · rw [called]
      trivial
  · exact fun left _ _ id won => absurd won (silent left id)
  · exact fun step member _ _ => .inl member

end Server

/-- Of the calls on a manual step at most one returns ok. The step is completed exactly where it
has its one decision, both are those of that call, and the process has taken its transition; every
other call changes nothing, and each decides on the rows it has read. -/
theorem manual_decided_once (config : Config) (clock : Nat → Time) (digest : String → String)
    (history : List Call) (calls : Nat → Option ManualCall) (turns : List Nat) :
    let start := (reached config clock digest history).db
    let server := Runs.run decisionProgram.turn (DecisionServer.start start calls) turns
    (∀ step ∈ server.shared.workflow.steps, step.stepType = .manual →
      (step.state = .completed ↔
        ((server.shared.rulings step.id).filter fun row => row.source = .manual).length = 1) ∧
      (step.state = .completed → step ∈ start.workflow.steps ∨
        ∃ index, (server.party index).won? = some step.id)) ∧
    (∀ left right, left ≠ right → ∀ id, (server.party left).won? = some id →
      (server.party right).won? ≠ some id) ∧
    ∀ index call stage, server.party index = .deciding call stage →
      let next := decisionProgram.turn server index
      (next.shared = server.shared ∨ ∃ decision result,
        next.party index = .deciding call (.ended (.decided (.ok decision result)))) ∧
      (∀ reply, stage = .ended reply → reply.Fails ∨
        ∃ decision result, reply = .decided (.ok decision result) ∧
          ∃ step row, server.shared.Shows call decision step row) ∧
      ∀ process step, stage = .applying process step →
        call.decide server.shared process step = call.run server.shared := by
  intro start server
  have sound : DecisionServer.Sound start server :=
    Runs.run_invariant (DecisionServer.Sound start) (fun _ index sound => sound.turn index) turns _
      (DecisionServer.start_sound config clock digest history calls)
  refine ⟨?_, sound.once, ?_⟩
  · intro step member manual
    refine ⟨?_, sound.covered step member manual⟩
    rcases sound.ruled.manual step member manual with undecided | ⟨row, decided⟩
    · rw [undecided.none, undecided.waiting]
      simp
    · rw [decided.alone, decided.completed]
      simp [decided.source]
  · intro index call stage party next
    have reads := sound.reads index
    rw [party] at reads
    refine ⟨?_, ?_, ?_⟩
    · rcases sound.turn_cases index with ⟨same, _⟩ |
        ⟨other, process, step, decision, result, acting, _, _, answered, _⟩
      · exact .inl same
      · rw [party] at acting
        cases acting
        exact .inr ⟨decision, result, answered⟩
    · rintro reply rfl
      exact reads
    · rintro process step rfl
      have holds : call.Holds server.shared process step := reads
      exact ManualCall.decide_eq_run holds.processFound holds.stepFound holds.owns holds.manual
        holds.waiting

end PaymentWorkflow
