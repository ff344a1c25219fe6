import PaymentWorkflow.ProcessLocks
import PaymentWorkflow.SystemRuns

/-! When two transactions of a process wait for each other's lock on its row. -/

namespace PaymentWorkflow

open RowLocks

/-! Undisturbed, each of the three is the function of `EngineCore.lean`. -/

section Alone

variable (db : Db)

theorem SignalStage.alone (call : SignalCall) :
    Runs.run (fun place (_ : Unit) => SignalStage.perform place.1 call place.2) (db, .called)
      (List.replicate 7 ()) = SignalStage.conclude db call := by
  simp only [List.replicate, Runs.run_cons, Runs.run_nil, SignalStage.perform]
  by_cases arrives : call.arrives db = true
  · have unknown : (db.workflow.signal? call.messageId).isSome = false := by
      simp only [SignalCall.arrives, Bool.and_eq_true] at arrives
      simpa using arrives.2
    simp only [if_pos arrives, unknown, Bool.false_eq_true, if_false]
    by_cases taken : (db.workflow.signals.any fun row =>
        sameSignal row call.processId call.signalType (call.bodyHash db)) = true
    · simp only [if_pos taken, SignalStage.conclude]
    · simp only [if_neg taken]
  · simp only [if_neg arrives, SignalStage.conclude]

theorem FinishStage.alone (call : FinishCall) :
    Runs.run (fun place (_ : Unit) => FinishStage.perform place.1 call place.2) (db, .called)
      (List.replicate 5 ()) = FinishStage.conclude db call := by
  simp only [List.replicate, Runs.run_cons, Runs.run_nil, FinishStage.perform]
  cases call.leased? db with
  | some job => rfl
  | none => rfl

theorem ManualStage.alone (call : ManualCall) :
    Runs.run (fun place (_ : Unit) => ManualStage.perform place.1 call place.2) (db, .called)
      (List.replicate 4 ()) = ManualStage.conclude db call := by
  simp only [List.replicate, Runs.run_cons, Runs.run_nil, ManualStage.perform]
  cases call.process? db with
  | none => rfl
  | some process =>
      dsimp only
      cases call.step? db with
      | none => rfl
      | some step =>
          by_cases awaits : step.processId = process.id ∧ step.stepType = .manual ∧
              step.state = .waiting
          · simp only [if_pos awaits]
          · simp only [if_neg awaits, ManualStage.conclude]

end Alone

/-! The locks each stage of the calls holds. -/

def SignalStage.held (call : SignalCall) : SignalStage → List (Request EngineRow)
  | .called | .storing _ | .ended _ => []
  | .indexing _ => [⟨.message call.messageId, .update⟩]
  | .referring bodyHash =>
      [⟨.message call.messageId, .update⟩, ⟨.body call.processId call.signalType bodyHash, .update⟩]
  | .logging bodyHash =>
      [⟨.message call.messageId, .update⟩, ⟨.body call.processId call.signalType bodyHash, .update⟩,
        ⟨.process call.processId, .keyShare⟩]
  | .locking bodyHash =>
      [⟨.message call.messageId, .update⟩, ⟨.body call.processId call.signalType bodyHash, .update⟩,
        ⟨.process call.processId, .keyShare⟩, ⟨.process call.processId, .keyShare⟩]
  | .applying bodyHash =>
      [⟨.message call.messageId, .update⟩, ⟨.body call.processId call.signalType bodyHash, .update⟩,
        ⟨.process call.processId, .keyShare⟩, ⟨.process call.processId, .keyShare⟩,
        ⟨.process call.processId, .update⟩]

def FinishStage.held : FinishStage → List (Request EngineRow)
  | .called | .ended _ => []
  | .stepping job => [⟨.job job.id, .update⟩]
  | .referring job => [⟨.job job.id, .update⟩, ⟨.step job.stepInstanceId, .noKeyUpdate⟩]
  | .locking job =>
      [⟨.job job.id, .update⟩, ⟨.step job.stepInstanceId, .noKeyUpdate⟩,
        ⟨.process job.processId, .keyShare⟩]
  | .applying job =>
      [⟨.job job.id, .update⟩, ⟨.step job.stepInstanceId, .noKeyUpdate⟩,
        ⟨.process job.processId, .keyShare⟩, ⟨.process job.processId, .update⟩]

def ManualStage.held : ManualStage → List (Request EngineRow)
  | .called | .ended _ => []
  | .deciding process => [⟨.process process.id, .update⟩]
  | .referring process step => [⟨.process process.id, .update⟩, ⟨.step step.id, .update⟩]
  | .applying process step =>
      [⟨.process process.id, .update⟩, ⟨.step step.id, .update⟩, ⟨.process process.id, .keyShare⟩]

def EngineParty.held : EngineParty → List (Request EngineRow)
  | .idle => []
  | .signalling call stage => stage.held call
  | .finishing _ stage => stage.held
  | .deciding _ stage => stage.held

theorem engineProgram_accounts : engineProgram.Accounts EngineParty.held where
  releases := by
    intro db party past
    change EngineParty.ended (party.perform db).2 = true at past
    change EngineParty.held (party.perform db).2 = []
    generalize (party.perform db).2 = next at past
    rcases next with _ | ⟨_, stage⟩ | ⟨_, stage⟩ | ⟨_, stage⟩
    · cases past
    all_goals cases stage <;> first | rfl | cases past
  takes := by
    intro db party running
    change EngineParty.ended (party.perform db).2 = false at running
    change EngineParty.held (party.perform db).2 = party.held ++ (party.request db).toList
    rcases party with _ | ⟨call, stage⟩ | ⟨call, stage⟩ | ⟨call, stage⟩
    · rfl
    · cases stage with
      | called =>
          simp only [EngineParty.perform, SignalStage.perform] at running ⊢
          split
          · rfl
          · rename_i early
            rw [if_neg early] at running
            cases running
      | storing =>
          simp only [EngineParty.perform, SignalStage.perform] at running ⊢
          split
          · rename_i taken
            rw [if_pos taken] at running
            cases running
          · rfl
      | indexing bodyHash =>
          simp only [EngineParty.perform, SignalStage.perform] at running ⊢
          split
          · rename_i taken
            rw [if_pos taken] at running
            cases running
          · rfl
      | referring | logging | locking => rfl
      | applying | ended => cases running
    · cases stage with
      | called =>
          simp only [EngineParty.perform, FinishStage.perform] at running ⊢
          cases leased : call.leased? db with
          | none =>
              rw [leased] at running
              cases running
          | some job =>
              have found : db.workflow.job? call.jobId = some job :=
                (Option.filter_eq_some_iff.mp leased).1
              simp [EngineParty.held, FinishStage.held, EngineParty.request, FinishStage.request,
                found]
      | stepping | referring | locking => rfl
      | applying | ended => cases running
    · cases stage with
      | called =>
          simp only [EngineParty.perform, ManualStage.perform] at running ⊢
          cases found : call.process? db with
          | none =>
              rw [found] at running
              cases running
          | some process =>
              simp [EngineParty.held, ManualStage.held, EngineParty.request, ManualStage.request,
                found]
      | deciding process =>
          simp only [EngineParty.perform, ManualStage.perform] at running ⊢
          cases found : call.step? db with
          | none =>
              rw [found] at running
              cases running
          | some step =>
              rw [found] at running
              dsimp only at running ⊢
              split
              · simp [EngineParty.held, ManualStage.held, EngineParty.request, ManualStage.request,
                  found]
              · rename_i early
                rw [if_neg early] at running
                cases running
      | referring => rfl
      | applying | ended => cases running

/-! A transaction shares a process row between its child row and its own lock. -/

def EngineParty.shares : EngineParty → Option Nat
  | .signalling call (.logging _) | .signalling call (.locking _) => some call.processId
  | .finishing _ (.locking job) => some job.processId
  | _ => none

def EngineParty.upgrades : EngineParty → Option Nat
  | .signalling call (.locking _) => some call.processId
  | .finishing _ (.locking job) => some job.processId
  | _ => none

def EngineParty.refers : EngineParty → Option Nat
  | .signalling call (.referring _) => some call.processId
  | .finishing _ (.referring job) => some job.processId
  | _ => none

structure EngineServer.Sound (server : EngineServer) : Prop where
  accounted : server.Accounted EngineParty.held
  compatible : server.Compatible

section Locks

variable {server : EngineServer} {index left right id : Nat} {party : EngineParty}

theorem EngineServer.Sound.turn (sound : EngineServer.Sound server) (index : Nat) :
    EngineServer.Sound (engineProgram.turn server index) :=
  ⟨engineProgram_accounts.turn sound.accounted index, sound.compatible.turn engineProgram index⟩

theorem EngineParty.shares_of_upgrades (upgrades : party.upgrades = some id) :
    party.shares = some id := by
  rcases party with _ | ⟨call, stage⟩ | ⟨call, stage⟩ | ⟨call, stage⟩
  · cases upgrades
  · cases stage with
    | locking => exact upgrades
    | called | storing | indexing | referring | logging | applying | ended => cases upgrades
  · cases stage with
    | locking => exact upgrades
    | called | stepping | referring | applying | ended => cases upgrades
  · cases upgrades

/-- A transaction that shares a row holds it in no other mode. -/
theorem EngineParty.shares_iff {mode : Mode} (shares : party.shares = some id) :
    ⟨.process id, mode⟩ ∈ party.held ↔ mode = .keyShare := by
  rcases party with _ | ⟨call, stage⟩ | ⟨call, stage⟩ | ⟨call, stage⟩
  · cases shares
  · cases stage with
    | logging | locking =>
        cases shares
        simp [held, SignalStage.held]
    | called | storing | indexing | referring | applying | ended => cases shares
  · cases stage with
    | locking =>
        cases shares
        simp [held, FinishStage.held]
    | called | stepping | referring | applying | ended => cases shares
  · cases shares

theorem EngineParty.request_of_upgrades (db : Db) (upgrades : party.upgrades = some id) :
    party.request db = some ⟨.process id, .update⟩ := by
  rcases party with _ | ⟨call, stage⟩ | ⟨call, stage⟩ | ⟨call, stage⟩
  · cases upgrades
  · cases stage with
    | locking =>
        cases upgrades
        rfl
    | called | storing | indexing | referring | logging | applying | ended => cases upgrades
  · cases stage with
    | locking =>
        cases upgrades
        rfl
    | called | stepping | referring | applying | ended => cases upgrades
  · cases upgrades

/-- Who holds the process row and asks for it again asks for a key share, or upgrades. -/
theorem EngineParty.asks_again {db : Db} {mode own : Mode}
    (asked : party.request db = some ⟨.process id, mode⟩) (member : ⟨.process id, own⟩ ∈ party.held) :
    mode = .keyShare ∨ party.upgrades = some id := by
  rcases party with _ | ⟨call, stage⟩ | ⟨call, stage⟩ | ⟨call, stage⟩
  · cases asked
  · cases stage with
    | called | storing | indexing | applying | ended => cases asked
    | referring | logging =>
        cases asked
        exact Or.inl rfl
    | locking =>
        cases asked
        exact Or.inr rfl
  · cases stage with
    | called | ended => cases member
    | stepping | applying => cases asked
    | referring =>
        cases asked
        exact Or.inl rfl
    | locking =>
        cases asked
        exact Or.inr rfl
  · cases stage with
    | called | ended => cases member
    | deciding process =>
        obtain ⟨step, _, same⟩ := Option.map_eq_some_iff.mp asked
        cases same
    | referring =>
        cases asked
        exact Or.inl rfl
    | applying => cases asked

theorem EngineServer.Sound.crossed_iff (sound : EngineServer.Sound server) :
    engineProgram.Crossed server left right (.process id) (.process id) ↔
      left ≠ right ∧ (server.party left).upgrades = some id ∧
        (server.party right).upgrades = some id := by
  -- a waiting key share needs a lock that excludes the one its owner holds already
  have upgrading : ∀ {waiting holding : Nat} {mode taken other own : Mode}, waiting ≠ holding →
      engineProgram.next server waiting = some ⟨.process id, mode⟩ →
      ⟨.process id, taken⟩ ∈ (server.party holding).held → taken.conflicts mode = true →
      ⟨.process id, own⟩ ∈ (server.party waiting).held →
      (server.party waiting).upgrades = some id := by
    intro waiting holding mode taken other own different asked member conflict ownMember
    rcases EngineParty.asks_again asked ownMember with rfl | upgrades
    · have excludes : taken = .update := by
        cases taken <;> first | rfl | cases conflict
      have clash := Program.held_compatible sound.accounted sound.compatible different ownMember
        member rfl
      rw [excludes] at clash
      cases own <;> cases clash
    · exact upgrades
  constructor
  · rintro ⟨waits, answers⟩
    obtain ⟨different, mode, taken, asked, member, conflict⟩ :=
      (Program.waitsFor_iff sound.accounted).mp waits
    obtain ⟨_, other, own, otherAsked, ownMember, otherConflict⟩ :=
      (Program.waitsFor_iff sound.accounted).mp answers
    exact ⟨different, @upgrading _ _ _ _ mode _ different asked member conflict ownMember,
      @upgrading _ _ _ _ mode _ different.symm otherAsked ownMember otherConflict member⟩
  · rintro ⟨different, leftUpgrades, rightUpgrades⟩
    exact ⟨(Program.waitsFor_iff sound.accounted).mpr ⟨different, .update, .keyShare,
        EngineParty.request_of_upgrades _ leftUpgrades,
        (EngineParty.shares_iff (EngineParty.shares_of_upgrades rightUpgrades)).mpr rfl, rfl⟩,
      (Program.waitsFor_iff sound.accounted).mpr ⟨different.symm, .update, .keyShare,
        EngineParty.request_of_upgrades _ rightUpgrades,
        (EngineParty.shares_iff (EngineParty.shares_of_upgrades leftUpgrades)).mpr rfl, rfl⟩⟩

/-! Who comes to share a row, and who stays. -/

theorem EngineParty.perform_shares {db : Db} (shares : (party.perform db).2.shares = some id) :
    party.shares = some id ∨ party.refers = some id := by
  rcases party with _ | ⟨call, stage⟩ | ⟨call, stage⟩ | ⟨call, stage⟩
  · cases shares
  · cases stage with
    | called =>
        simp only [perform, SignalStage.perform] at shares
        split at shares <;> cases shares
    | storing =>
        simp only [perform, SignalStage.perform] at shares
        split at shares <;> cases shares
    | indexing =>
        simp only [perform, SignalStage.perform] at shares
        split at shares <;> cases shares
    | referring => exact Or.inr shares
    | logging => exact Or.inl shares
    | locking | applying | ended => cases shares
  · cases stage with
    | called =>
        simp only [perform, FinishStage.perform] at shares
        split at shares <;> cases shares
    | referring => exact Or.inr shares
    | stepping | locking | applying | ended => cases shares
  · cases stage with
    | called =>
        simp only [perform, ManualStage.perform] at shares
        split at shares <;> cases shares
    | deciding =>
        simp only [perform, ManualStage.perform] at shares
        split at shares
        · split at shares <;> cases shares
        · cases shares
    | referring | applying | ended => cases shares

theorem EngineParty.shares_next (db : Db) (shares : party.shares = some id) :
    party.upgrades = some id ∨
      party.request db = some ⟨.process id, .keyShare⟩ ∧
        (party.perform db).2.upgrades = some id := by
  rcases party with _ | ⟨call, stage⟩ | ⟨call, stage⟩ | ⟨call, stage⟩
  · cases shares
  · cases stage <;> cases shares
    · exact Or.inr ⟨rfl, rfl⟩
    · exact Or.inl rfl
  · cases stage <;> cases shares
    exact Or.inl rfl
  · cases shares

/-- The statement is the first child row of a process whose row another transaction holds for a
child row of its own, and is still to lock. -/
def EngineServer.Joins (server : EngineServer) (index : Nat) : Prop :=
  server.grants index (engineProgram.next server index) = true ∧
    ∃ id other, (server.party index).refers = some id ∧ other ≠ index ∧
      (server.party other).shares = some id

def EngineServer.Alone (server : EngineServer) : Prop :=
  ∀ left right id, left ≠ right → (server.party left).shares = some id →
    (server.party right).shares ≠ some id

def EngineServer.Sharing (left right id : Nat) (server : EngineServer) : Prop :=
  left ≠ right ∧ (server.party left).shares = some id ∧ (server.party right).shares = some id

theorem EngineServer.Alone.turn (alone : EngineServer.Alone server)
    (apart : ¬ EngineServer.Joins server index) :
    EngineServer.Alone (engineProgram.turn server index) := by
  intro left right id different leftShares rightShares
  unfold Program.turn at leftShares rightShares
  split at leftShares
  · rename_i granted
    rw [if_pos granted] at rightShares
    by_cases isLeft : left = index
    · subst isLeft
      rw [Program.proceed_own] at leftShares
      rw [Program.proceed_other _ _ _ different.symm] at rightShares
      rcases EngineParty.perform_shares leftShares with before | refers
      · exact alone left right id different before rightShares
      · exact apart ⟨granted, id, right, refers, different.symm, rightShares⟩
    · rw [Program.proceed_other _ _ _ isLeft] at leftShares
      by_cases isRight : right = index
      · subst isRight
        rw [Program.proceed_own] at rightShares
        rcases EngineParty.perform_shares rightShares with before | refers
        · exact alone left right id different leftShares before
        · exact apart ⟨granted, id, left, refers, isLeft, leftShares⟩
      · rw [Program.proceed_other _ _ _ isRight] at rightShares
        exact alone left right id different leftShares rightShares
  · rename_i waits
    rw [if_neg waits] at rightShares
    exact alone left right id different leftShares rightShares

theorem EngineServer.Sharing.waits (sharing : EngineServer.Sharing left right id server)
    (sound : EngineServer.Sound server) (upgrades : (server.party left).upgrades = some id) :
    engineProgram.turn server left = server := by
  unfold Program.turn
  rw [if_neg]
  intro granted
  have asked : engineProgram.next server left = some ⟨.process id, .update⟩ :=
    EngineParty.request_of_upgrades _ upgrades
  rw [asked, grants_iff] at granted
  have held := (sound.accounted ⟨⟨.process id, .keyShare⟩, right⟩).mpr
    ((EngineParty.shares_iff sharing.2.2).mpr rfl)
  have free := granted _ held sharing.1.symm rfl
  cases free

theorem EngineServer.Sharing.arrives (sharing : EngineServer.Sharing left right id server)
    (sound : EngineServer.Sound server) :
    ((engineProgram.turn server left).party left).upgrades = some id ∧
      (engineProgram.turn server left).party right = server.party right := by
  rcases EngineParty.shares_next server.shared sharing.2.1 with upgrades | ⟨asked, next⟩
  · rw [sharing.waits sound upgrades]
    exact ⟨upgrades, rfl⟩
  · have granted : server.grants left (engineProgram.next server left) = true := by
      have same : engineProgram.next server left = some ⟨.process id, .keyShare⟩ := asked
      rw [same, grants_iff]
      intro lock member other sameRow
      by_contra excludes
      have owned := (sound.accounted lock).mp member
      have exclusive : lock.mode = .update := by
        cases mode : lock.mode <;> rw [mode] at excludes <;> first | rfl | exact absurd rfl excludes
      have asLock : lock.toRequest = ⟨.process id, .update⟩ := by
        dsimp only at sameRow
        rw [← sameRow, ← exclusive]
      rw [asLock] at owned
      by_cases isRight : lock.owner = right
      · rw [isRight] at owned
        cases (EngineParty.shares_iff sharing.2.2).mp owned
      · have clash := Program.held_compatible sound.accounted sound.compatible isRight owned
          ((EngineParty.shares_iff sharing.2.2).mpr rfl) rfl
        cases clash
    unfold Program.turn
    rw [if_pos granted, Program.proceed_own, Program.proceed_other _ _ _ sharing.1.symm]
    exact ⟨next, rfl⟩

theorem EngineServer.Sharing.symm (sharing : EngineServer.Sharing left right id server) :
    EngineServer.Sharing right left id server :=
  ⟨sharing.1.symm, sharing.2.2, sharing.2.1⟩

theorem EngineServer.Sharing.turn (sharing : EngineServer.Sharing left right id server)
    (sound : EngineServer.Sound server) (index : Nat) :
    EngineServer.Sharing left right id (engineProgram.turn server index) := by
  by_cases isLeft : index = left
  · subst isLeft
    obtain ⟨upgrades, same⟩ := sharing.arrives sound
    exact ⟨sharing.1, EngineParty.shares_of_upgrades upgrades, same ▸ sharing.2.2⟩
  · by_cases isRight : index = right
    · subst isRight
      obtain ⟨upgrades, same⟩ := sharing.symm.arrives sound
      exact ⟨sharing.1, same ▸ sharing.2.1, EngineParty.shares_of_upgrades upgrades⟩
    · unfold Program.turn
      split
      · exact ⟨sharing.1, by rw [Program.proceed_other _ _ _ (Ne.symm isLeft)]; exact sharing.2.1,
          by rw [Program.proceed_other _ _ _ (Ne.symm isRight)]; exact sharing.2.2⟩
      · exact sharing

theorem EngineServer.Joins.sharing (joins : EngineServer.Joins server index) :
    ∃ other id, EngineServer.Sharing index other id (engineProgram.turn server index) := by
  obtain ⟨granted, id, other, refers, different, shares⟩ := joins
  refine ⟨other, id, different.symm, ?_, ?_⟩
  · unfold Program.turn
    rw [if_pos granted, Program.proceed_own]
    change ((server.party index).perform server.shared).2.shares = some id
    rcases party : server.party index with _ | ⟨call, stage⟩ | ⟨call, stage⟩ | ⟨call, stage⟩
    · rw [party] at refers
      cases refers
    · rw [party] at refers
      cases stage <;> cases refers
      rfl
    · rw [party] at refers
      cases stage <;> cases refers
      rfl
    · rw [party] at refers
      cases refers
  · unfold Program.turn
    rw [if_pos granted, Program.proceed_other _ _ _ different]
    exact shares

end Locks

theorem EngineServer.start_sound (db : Db) (calls : Nat → EngineCall) :
    EngineServer.Sound (EngineServer.start db calls) where
  accounted := by
    intro lock
    refine iff_of_false List.not_mem_nil ?_
    change lock.toRequest ∉ (calls lock.owner).party.held
    cases calls lock.owner <;> exact List.not_mem_nil
  compatible := nofun

theorem EngineServer.run_sound (db : Db) (calls : Nat → EngineCall) (turns : List Nat) :
    EngineServer.Sound (Runs.run engineProgram.turn (EngineServer.start db calls) turns) :=
  Runs.run_invariant EngineServer.Sound (fun _ index sound => sound.turn index) turns _
    (EngineServer.start_sound db calls)

/-- No two transactions wait for each other's lock on a process row in a run where none inserts
its child row while another shares the row; in every other run two of them come to. -/
theorem process_row_deadlocks (db : Db) (calls : Nat → EngineCall) (turns : List Nat) :
    (Runs.Guarded engineProgram.turn (fun server index => ¬ EngineServer.Joins server index)
        (EngineServer.start db calls) turns →
      ¬ ∃ left right id, engineProgram.Crossed
        (Runs.run engineProgram.turn (EngineServer.start db calls) turns) left right
        (.process id) (.process id)) ∧
    (¬ Runs.Guarded engineProgram.turn (fun server index => ¬ EngineServer.Joins server index)
        (EngineServer.start db calls) turns →
      ∃ more left right id, engineProgram.Crossed
        (Runs.run engineProgram.turn (EngineServer.start db calls) (turns ++ more)) left right
        (.process id) (.process id)) := by
  constructor
  · rintro guarded ⟨left, right, id, crossed⟩
    have alone := Runs.guarded_invariant EngineServer.Alone
      (fun _ _ alone apart => alone.turn apart) turns _ (by
        intro left right id _ shares
        change (calls left).party.shares = some id at shares
        cases called : calls left <;> rw [called] at shares <;> cases shares) guarded
    obtain ⟨different, leftUpgrades, rightUpgrades⟩ :=
      (EngineServer.run_sound db calls turns).crossed_iff.mp crossed
    exact alone left right id different (EngineParty.shares_of_upgrades leftUpgrades)
      (EngineParty.shares_of_upgrades rightUpgrades)
  · intro broken
    obtain ⟨done, index, rest, rfl, joins⟩ := Runs.not_guarded turns _ broken
    obtain ⟨other, id, sharing⟩ := (not_not.mp joins).sharing
    have kept := Runs.run_invariant
      (fun server => EngineServer.Sound server ∧ EngineServer.Sharing index other id server)
      (fun _ next held => ⟨held.1.turn next, held.2.turn held.1 next⟩) rest _
      ⟨(EngineServer.run_sound db calls done).turn index, sharing⟩
    refine ⟨[index, other], index, other, id, ?_⟩
    rw [Runs.run_append, Runs.run_append, Runs.run_cons]
    obtain ⟨sound, sharing⟩ := kept
    obtain ⟨first, _⟩ := sharing.arrives sound
    have later := sound.turn index
    obtain ⟨second, same⟩ := (sharing.turn sound index).symm.arrives later
    refine (later.turn other).crossed_iff.mpr ⟨sharing.1, ?_, second⟩
    rw [same]
    exact first

namespace Seed

def signals : Nat → EngineCall
  | 0 => .acceptSignal ⟨1, "payment.receipt", "first", .text "COMPLETED"⟩
  | 1 => .acceptSignal ⟨1, "payment.receipt", "second", .text "REJECTED"⟩
  | _ => .none

end Seed

/-- Both have inserted their signal and its event, and both go for the process row. -/
theorem signals_deadlock :
    ¬ ∀ (db : Db) (calls : Nat → EngineCall) (turns : List Nat), ¬ ∃ left right id,
      engineProgram.Crossed (Runs.run engineProgram.turn (EngineServer.start db calls) turns) left
        right (.process id) (.process id) := by
  intro never
  refine never (seeded Seed.prepared).db Seed.signals [0, 0, 0, 0, 0, 1, 1, 1, 1, 1] ⟨0, 1, 1, ?_⟩
  exact (EngineServer.run_sound _ _ _).crossed_iff.mpr
    ⟨by decide, by decide +kernel, by decide +kernel⟩

end PaymentWorkflow
