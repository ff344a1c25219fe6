import PaymentWorkflow.MigrationCore
import Mathlib.Data.List.Induction

/-!
Runs of `migration apply` that take turns on one database, whatever becomes of their statements:
the script of a file is committed once, and a run that reports success has all its files recorded.
-/

namespace PaymentWorkflow

open RowLocks Interleaving

section History

variable {host : CliHost} {history later : SchemaHistory} {file other : SqlFile} {number : Nat}

structure SchemaHistory.Sound (host : CliHost) (history : SchemaHistory) : Prop where
  filenames : (history.migrations.map SchemaMigration.filename).Nodup
  recorded : history.scripts.map (fun script => host.record script.toSqlFile) = history.migrations

structure SchemaHistory.Onward (history later : SchemaHistory) : Prop where
  migrations : history.migrations <+: later.migrations
  scripts : history.scripts <+: later.scripts

theorem SchemaHistory.Onward.refl (history : SchemaHistory) : history.Onward history :=
  ⟨List.prefix_refl _, List.prefix_refl _⟩

theorem SchemaHistory.Onward.trans {between : SchemaHistory} (left : history.Onward between)
    (right : between.Onward later) : history.Onward later :=
  ⟨left.migrations.trans right.migrations, left.scripts.trans right.scripts⟩

theorem SchemaHistory.commit_onward : history.Onward (history.commit host number file) :=
  ⟨List.prefix_append _ _, List.prefix_append _ _⟩

theorem SchemaHistory.checksum?_commit (filename : String) :
    (history.commit host number file).checksum? filename =
      (history.checksum? filename).or
        (if file.filename = filename then some (host.sha256Hex file.sql) else none) := by
  simp only [checksum?, commit, Table.lookup, List.find?_append, CliHost.record]
  by_cases same : file.filename = filename <;>
    cases history.migrations.find? _ <;> simp [same]

theorem SchemaHistory.Onward.checksum? (onward : history.Onward later) {filename checksum : String}
    (known : history.checksum? filename = some checksum) :
    later.checksum? filename = some checksum := by
  obtain ⟨more, extended⟩ := onward.migrations
  simp only [SchemaHistory.checksum?, Option.map_eq_some_iff] at known ⊢
  obtain ⟨row, found, rfl⟩ := known
  refine ⟨row, ?_, rfl⟩
  rw [← extended]
  simp only [Table.lookup, List.find?_append] at found ⊢
  rw [found, Option.some_or]

def SchemaHistory.committedBy (history : SchemaHistory) (number : Nat) : List String :=
  (history.scripts.filter fun script => script.run = number).map fun script => script.filename

theorem SchemaHistory.committedBy_commit (other : Nat) :
    (history.commit host other file).committedBy number =
      history.committedBy number ++ if other = number then [file.filename] else [] := by
  rw [committedBy, committedBy, SchemaHistory.commit, List.filter_append, List.map_append]
  by_cases same : other = number <;> simp [same]

theorem SchemaHistory.mem_committedBy {name : String} : name ∈ history.committedBy number ↔
    ∃ script ∈ history.scripts, script.filename = name ∧ script.run = number := by
  simp only [committedBy, List.mem_map, List.mem_filter, decide_eq_true_eq]
  constructor
  · rintro ⟨script, ⟨member, owner⟩, named⟩
    exact ⟨script, member, named, owner⟩
  · rintro ⟨script, member, named, owner⟩
    exact ⟨script, ⟨member, owner⟩, named⟩

theorem SchemaHistory.Onward.committedBy (onward : history.Onward later) {name : String}
    (member : name ∈ history.committedBy number) : name ∈ later.committedBy number := by
  obtain ⟨script, inside, facts⟩ := SchemaHistory.mem_committedBy.mp member
  exact SchemaHistory.mem_committedBy.mpr ⟨script, onward.scripts.subset inside, facts⟩

theorem SchemaHistory.Sound.commit (sound : history.Sound host)
    (fresh : history.checksum? file.filename = none) :
    (history.commit host number file).Sound host := by
  refine ⟨?_, ?_⟩
  · simp only [SchemaHistory.commit, List.map_append, List.map_singleton, List.nodup_append,
      CliHost.record]
    refine ⟨sound.filenames, List.nodup_singleton _, ?_⟩
    intro left inside right single same
    obtain ⟨row, member, rfl⟩ := List.mem_map.mp inside
    rw [List.mem_singleton] at single
    simp only [SchemaHistory.checksum?, Option.map_eq_none_iff] at fresh
    exact Table.lookup_eq_none.mp fresh row member (same.trans single)
  · simp only [SchemaHistory.commit, List.map_append, List.map_singleton, sound.recorded]

end History

/-! One run. -/

structure ApplyRun.Past (host : CliHost) (history : SchemaHistory) (run : ApplyRun)
    (past : List SqlFile) : Prop where
  recorded : ∀ file ∈ past, history.checksum? file.filename = some (host.sha256Hex file.sql)
  listed : (run.applied ++ run.skipped).Perm (past.map SqlFile.filename)
  applied : run.applied.Sublist (past.map SqlFile.filename)
  skipped : run.skipped.Sublist (past.map SqlFile.filename)
  own : run.applied = history.committedBy run.number

def CliAnswer.True (host : CliHost) (history : SchemaHistory) (run : ApplyRun)
    (files : List SqlFile) : CliAnswer → Prop
  | .ok applied skipped => applied = run.applied ∧ skipped = run.skipped ∧ files ≠ [] ∧
      run.Past host history files
  | .error code message => code = "manifest.conflict" → ∃ file ∈ files,
      message = "migration file changed after apply: " ++ file.filename ∧
        ∃ existing, history.checksum? file.filename = some existing ∧
          existing ≠ host.sha256Hex file.sql

def ApplyRun.Holds (host : CliHost) (history : SchemaHistory) (files : List SqlFile)
    (run : ApplyRun) : Prop :=
  match run.stage with
  | .statement phase file rest => ∃ past, files = past ++ file :: rest ∧
      run.Past host history past ∧ (phase = .commit → history.checksum? file.filename = none)
  | .finished answer => (∀ told, answer = some told → told.True host history run files) ∧
      run.applied ⊆ history.committedBy run.number

section Run

variable {host : CliHost} {history later : SchemaHistory} {run : ApplyRun} {file : SqlFile}
  {past files rest : List SqlFile}

theorem ApplyRun.Past.subset (behind : run.Past host history past) :
    run.applied ⊆ history.committedBy run.number := by
  rw [behind.own]
  exact List.Subset.refl _

theorem ApplyRun.Past.onward (behind : run.Past host history past) (onward : history.Onward later)
    (own : later.committedBy run.number = history.committedBy run.number) :
    run.Past host later past where
  recorded file member := onward.checksum? (behind.recorded file member)
  listed := behind.listed
  applied := behind.applied
  skipped := behind.skipped
  own := behind.own.trans own.symm

theorem ApplyRun.Past.skip (behind : run.Past host history past)
    (known : history.checksum? file.filename = some (host.sha256Hex file.sql)) :
    ({ run with skipped := run.skipped ++ [file.filename] } : ApplyRun).Past host history
      (past ++ [file]) where
  recorded other member := by
    rcases List.mem_append.mp member with old | new
    · exact behind.recorded other old
    · rw [List.mem_singleton.mp new]
      exact known
  listed := by
    rw [← List.append_assoc, List.map_append]
    exact behind.listed.append_right _
  applied := by
    rw [List.map_append]
    exact behind.applied.trans (List.sublist_append_left _ _)
  skipped := by
    rw [List.map_append]
    exact behind.skipped.append (List.Sublist.refl _)
  own := behind.own

theorem ApplyRun.Past.apply (behind : run.Past host history past)
    (fresh : history.checksum? file.filename = none) :
    ({ run with applied := run.applied ++ [file.filename] } : ApplyRun).Past host
      (history.commit host run.number file) (past ++ [file]) where
  recorded other member := by
    rcases List.mem_append.mp member with old | new
    · exact SchemaHistory.commit_onward.checksum? (behind.recorded other old)
    · rw [List.mem_singleton.mp new, SchemaHistory.checksum?_commit, fresh, if_pos rfl,
        Option.none_or]
  listed := by
    rw [List.map_append]
    refine List.Perm.trans ?_ (behind.listed.append_right _)
    simp only [List.append_assoc]
    exact (List.perm_append_comm).append_left _
  applied := by
    rw [List.map_append]
    exact behind.applied.append (List.Sublist.refl _)
  skipped := by
    rw [List.map_append]
    exact behind.skipped.trans (List.sublist_append_left _ _)
  own := by rw [SchemaHistory.committedBy_commit, if_pos rfl, behind.own]

theorem ApplyRun.Past.proceed (behind : run.Past host history past) (split : files = past ++ rest)
    (nonempty : files ≠ []) : (run.proceed rest).Holds host history files := by
  cases rest with
  | nil =>
      rw [List.append_nil] at split
      subst split
      refine ⟨?_, behind.subset⟩
      rintro told ⟨⟩
      exact ⟨rfl, rfl, nonempty, behind.recorded, behind.listed, behind.applied, behind.skipped,
        behind.own⟩
  | cons file rest =>
      refine ⟨past, split, ⟨behind.recorded, behind.listed, behind.applied, behind.skipped,
        behind.own⟩, ?_⟩
      rintro ⟨⟩

/-- A run may have committed one script more than it knows of when it stops. -/
theorem ApplyRun.Past.quit (behind : run.Past host history past) (onward : history.Onward later)
    {answer : Option CliAnswer}
    (told : ∀ said, answer = some said → said.True host later (run.quit answer) files) :
    (run.quit answer).Holds host later files :=
  ⟨told, fun _ member => onward.committedBy (behind.subset member)⟩

theorem ApplyRun.Past.failed (behind : run.Past host history past) (onward : history.Onward later)
    (message : String) : (run.failed file message).Holds host later files := by
  refine behind.quit onward ?_
  rintro told ⟨⟩
  simp [CliAnswer.True]

theorem ApplyRun.Past.enter (behind : run.Past host history past)
    (split : files = past ++ file :: rest) {phase : ApplyPhase}
    (fresh : phase = .commit → history.checksum? file.filename = none) :
    (run.enter phase file rest).Holds host history files :=
  ⟨past, split, ⟨behind.recorded, behind.listed, behind.applied, behind.skipped, behind.own⟩, fresh⟩

theorem ApplyRun.Past.statement (behind : run.Past host history past)
    (split : files = past ++ file :: rest) {phase : ApplyPhase}
    (fresh : phase = .commit → history.checksum? file.filename = none) :
    (run.statement host history phase file rest).2.Holds host
      (run.statement host history phase file rest).1 files := by
  have longer : files = (past ++ [file]) ++ rest := by rw [split, List.append_assoc]; rfl
  have nonempty : files ≠ [] := by simp [split]
  cases phase with
  | read | «open» | script | finalize => exact behind.enter split (by rintro ⟨⟩)
  | check =>
      simp only [ApplyRun.statement]
      cases known : history.checksum? file.filename with
      | none => exact behind.enter split (by rintro ⟨⟩)
      | some existing =>
          by_cases same : existing = host.sha256Hex file.sql
          · simp only [same, if_true]
            rw [same] at known
            exact (behind.skip known).proceed longer nonempty
          · simp only [same, if_false]
            refine behind.quit (.refl _) ?_
            rintro told ⟨⟩ _
            exact ⟨file, split ▸ by simp, rfl, existing, known, same⟩
  | insert =>
      simp only [ApplyRun.statement]
      cases known : history.checksum? file.filename with
      | none => exact behind.enter split fun _ => known
      | some existing => exact behind.failed (.refl _) _
  | commit => exact (behind.apply (fresh rfl)).proceed longer nonempty

@[simp] theorem ApplyRun.proceed_number : (run.proceed rest).number = run.number := by
  cases rest <;> rfl

theorem ApplyRun.statement_number {phase : ApplyPhase} :
    (run.statement host history phase file rest).2.number = run.number := by
  cases phase <;> simp only [ApplyRun.statement]
  case check =>
    cases history.checksum? file.filename with
    | none => rfl
    | some existing =>
        simp only
        split
        · exact ApplyRun.proceed_number
        · rfl
  case insert => split <;> rfl
  case commit => exact ApplyRun.proceed_number
  all_goals rfl

/-- Only a COMMIT changes the database. -/
theorem ApplyRun.statement_history {phase : ApplyPhase} :
    (run.statement host history phase file rest).1 =
      if phase = .commit then history.commit host run.number file else history := by
  cases phase <;> simp only [ApplyRun.statement, reduceCtorEq, if_true, if_false]
  case check =>
    cases history.checksum? file.filename with
    | none => rfl
    | some existing =>
        simp only
        split <;> rfl
  case insert => split <;> rfl

theorem ApplyRun.perform_cases {phase : ApplyPhase} (stage : run.stage = .statement phase file rest) :
    run.perform host history =
        { run with fates := run.fates.tail }.statement host history phase file rest ∨
      (∃ reached message, run.perform host history = (run.unanswered host history phase file reached,
        { run with fates := run.fates.tail }.failed file message)) ∨
      ∃ reached, run.perform host history = (run.unanswered host history phase file reached,
        { run with fates := run.fates.tail }.quit none) := by
  simp only [ApplyRun.perform, stage]
  cases run.fates.head? with
  | none => exact .inl rfl
  | some fate =>
      cases fate with
      | goes => exact .inl rfl
      | fails message reached => exact .inr (.inl ⟨reached, message, rfl⟩)
      | killed reached => exact .inr (.inr ⟨reached, rfl⟩)

theorem ApplyRun.unanswered_cases (host : CliHost) (history : SchemaHistory) (run : ApplyRun)
    (phase : ApplyPhase) (file : SqlFile) (reached : Bool) :
    run.unanswered host history phase file reached = history ∨
      phase = .commit ∧ run.unanswered host history phase file reached =
        history.commit host run.number file := by
  unfold ApplyRun.unanswered
  split
  · rename_i both
    exact .inr ⟨both.2, rfl⟩
  · exact .inl rfl

theorem ApplyRun.unanswered_onward (host : CliHost) (history : SchemaHistory) (run : ApplyRun)
    (phase : ApplyPhase) (file : SqlFile) (reached : Bool) :
    history.Onward (run.unanswered host history phase file reached) := by
  rcases ApplyRun.unanswered_cases host history run phase file reached with same | ⟨_, committed⟩
  · rw [same]
    exact .refl _
  · rw [committed]
    exact SchemaHistory.commit_onward

theorem ApplyRun.perform_finished {answer : Option CliAnswer}
    (stage : run.stage = .finished answer) :
    run.perform host history = (history, run) := by
  simp only [ApplyRun.perform, stage]

theorem ApplyRun.perform_number : (run.perform host history).2.number = run.number := by
  cases stage : run.stage with
  | finished => rw [ApplyRun.perform_finished stage]
  | statement phase file rest =>
      rcases ApplyRun.perform_cases stage with done | ⟨_, _, done⟩ | ⟨_, done⟩ <;> rw [done]
      · exact ApplyRun.statement_number
      all_goals rfl

theorem ApplyRun.perform_history : (run.perform host history).1 = history ∨
    ∃ file rest, run.stage = .statement .commit file rest ∧
      (run.perform host history).1 = history.commit host run.number file := by
  cases stage : run.stage with
  | finished => exact .inl (by rw [ApplyRun.perform_finished stage])
  | statement phase file rest =>
      have lost := ApplyRun.unanswered_cases host history run phase file
      rcases ApplyRun.perform_cases stage with done | ⟨reached, _, done⟩ | ⟨reached, done⟩ <;>
        rw [done]
      · by_cases last : phase = .commit
        · exact .inr ⟨file, rest, by rw [last], by rw [statement_history, if_pos last]⟩
        · exact .inl (by rw [statement_history, if_neg last])
      · exact (lost reached).imp id fun committed => ⟨file, rest, by rw [committed.1], committed.2⟩
      · exact (lost reached).imp id fun committed => ⟨file, rest, by rw [committed.1], committed.2⟩

theorem ApplyRun.Holds.perform (holds : run.Holds host history files) :
    (run.perform host history).2.Holds host (run.perform host history).1 files := by
  cases stage : run.stage with
  | finished => rwa [ApplyRun.perform_finished stage]
  | statement phase file rest =>
      simp only [ApplyRun.Holds, stage] at holds
      obtain ⟨past, split, behind, fresh⟩ := holds
      have same : ({ run with fates := run.fates.tail } : ApplyRun).Past host history past :=
        ⟨behind.recorded, behind.listed, behind.applied, behind.skipped, behind.own⟩
      have onward := ApplyRun.unanswered_onward host history run phase file
      rcases ApplyRun.perform_cases stage with done | ⟨reached, message, done⟩ | ⟨reached, done⟩ <;>
        rw [done]
      · exact same.statement split fresh
      · exact same.failed (onward reached) message
      · exact same.quit (onward reached) (by rintro told ⟨⟩)

theorem ApplyRun.Holds.onward (holds : run.Holds host history files)
    (onward : history.Onward later)
    (own : later.committedBy run.number = history.committedBy run.number)
    (fresh : ∀ file rest, run.stage = .statement .commit file rest →
      history.checksum? file.filename = none → later.checksum? file.filename = none) :
    run.Holds host later files := by
  cases stage : run.stage with
  | statement phase file rest =>
      simp only [ApplyRun.Holds, stage] at holds ⊢
      obtain ⟨past, split, behind, absent⟩ := holds
      refine ⟨past, split, behind.onward onward own, ?_⟩
      rintro rfl
      exact fresh file rest stage (absent rfl)
  | finished answer =>
      simp only [ApplyRun.Holds, stage] at holds ⊢
      refine ⟨?_, ?_⟩
      · intro told said
        have before := holds.1 told said
        cases told with
        | ok applied skipped =>
            exact ⟨before.1, before.2.1, before.2.2.1, before.2.2.2.onward onward own⟩
        | error code message =>
            intro conflict
            obtain ⟨file, member, text, existing, known, differs⟩ := before conflict
            exact ⟨file, member, text, existing, onward.checksum? known, differs⟩
      · exact fun name member => onward.committedBy (holds.2 member)

theorem ApplyRun.Holds.own (holds : run.Holds host history files) {name : String}
    (member : name ∈ run.applied) : name ∈ history.committedBy run.number := by
  cases stage : run.stage with
  | statement phase file rest =>
      simp only [ApplyRun.Holds, stage] at holds
      obtain ⟨_, _, behind, _⟩ := holds
      exact behind.subset member
  | finished answer =>
      simp only [ApplyRun.Holds, stage] at holds
      exact holds.2 member

end Run

/-! All runs. -/

def ApplyRun.held (run : ApplyRun) : List (RowLocks.Request String) :=
  match run.stage with
  | .statement .commit file _ => [⟨file.filename, .update⟩]
  | _ => []

section Runs

variable {host : CliHost} {server : MigrationServer} {files : Nat → List SqlFile}

theorem ApplyRun.held_released {run : ApplyRun} (released : run.released = true) :
    run.held = [] := by
  rcases run with ⟨number, stage, applied, skipped, fates⟩
  cases stage with
  | finished => rfl
  | statement phase file rest =>
      cases phase <;> first | rfl | cases released

theorem ApplyRun.proceed_released (run : ApplyRun) (rest : List SqlFile) :
    (run.proceed rest).released = true := by
  cases rest <;> rfl

theorem ApplyRun.statement_held {history : SchemaHistory} {run : ApplyRun} {phase : ApplyPhase}
    {file : SqlFile} {rest : List SqlFile}
    (opened : (run.statement host history phase file rest).2.released = false) :
    phase = .insert ∧ history.checksum? file.filename = none ∧
      (run.statement host history phase file rest).2 = run.enter .commit file rest := by
  cases phase <;> simp only [ApplyRun.statement] at opened ⊢
  case check =>
    cases known : history.checksum? file.filename with
    | none => rw [known] at opened; cases opened
    | some existing =>
        rw [known] at opened
        simp only at opened
        split at opened
        · rw [ApplyRun.skip, ApplyRun.proceed_released] at opened
          cases opened
        · cases opened
  case insert =>
    cases known : history.checksum? file.filename with
    | none => exact ⟨trivial, rfl, rfl⟩
    | some existing => rw [known] at opened; cases opened
  case commit =>
    rw [ApplyRun.apply, ApplyRun.proceed_released] at opened
    cases opened
  all_goals cases opened

theorem migrationProgram_accounts : (migrationProgram host).Accounts ApplyRun.held where
  releases := fun _ _ released => ApplyRun.held_released released
  takes := by
    intro history run opened
    change ((run.perform host history).2).released = false at opened
    change ((run.perform host history).2).held = run.held ++ (run.request history).toList
    cases stage : run.stage with
    | finished =>
        rw [ApplyRun.perform_finished stage] at opened
        simp only [ApplyRun.released, stage] at opened
        cases opened
    | statement phase file rest =>
        rcases ApplyRun.perform_cases stage with done | ⟨_, _, done⟩ | ⟨_, done⟩ <;>
          rw [done] at opened ⊢
        · obtain ⟨rfl, fresh, entered⟩ := ApplyRun.statement_held opened
          rw [entered]
          simp [ApplyRun.held, ApplyRun.request, ApplyRun.enter, stage, fresh]
        all_goals cases opened

structure MigrationServer.Sound (host : CliHost) (files : Nat → List SqlFile)
    (server : MigrationServer) : Prop where
  history : server.shared.Sound host
  accounted : server.Accounted ApplyRun.held
  compatible : server.Compatible
  numbers : ∀ index, (server.party index).number = index
  holds : ∀ index, (server.party index).Holds host server.shared (files index)

/-- Two transactions that are about to commit have entered different keys. -/
theorem MigrationServer.Sound.apart (sound : MigrationServer.Sound host files server)
    {left right : Nat} (different : left ≠ right) {file other : SqlFile}
    {rest more : List SqlFile} (leftStage : (server.party left).stage = .statement .commit file rest)
    (rightStage : (server.party right).stage = .statement .commit other more) :
    file.filename ≠ other.filename := by
  intro same
  have taken : ⟨file.filename, .update⟩ ∈ ApplyRun.held (server.party left) := by
    simp [ApplyRun.held, leftStage]
  have held : ⟨other.filename, .update⟩ ∈ ApplyRun.held (server.party right) := by
    simp [ApplyRun.held, rightStage]
  have free := Program.held_compatible sound.accounted sound.compatible different taken held same
  cases free

theorem MigrationServer.Sound.turn (sound : MigrationServer.Sound host files server) (index : Nat) :
    MigrationServer.Sound host files ((migrationProgram host).turn server index) ∧
      server.shared.Onward ((migrationProgram host).turn server index).shared := by
  have compatible := sound.compatible.turn (migrationProgram host) index
  have accounted := (@migrationProgram_accounts host).turn sound.accounted index
  unfold Program.turn at compatible accounted ⊢
  split at compatible
  swap
  · rename_i waits
    rw [if_neg waits]
    exact ⟨sound, .refl _⟩
  rename_i granted
  rw [if_pos granted] at accounted ⊢
  have own := (sound.holds index).perform
  have steps := @ApplyRun.perform_history host server.shared (server.party index)
  have onward : server.shared.Onward ((server.party index).perform host server.shared).1 := by
    rcases steps with same | ⟨file, rest, _, committed⟩
    · rw [same]
      exact .refl _
    · rw [committed]
      exact SchemaHistory.commit_onward
  refine ⟨⟨?_, accounted, compatible, ?_, ?_⟩, onward⟩
  · show SchemaHistory.Sound host ((server.party index).perform host server.shared).1
    rcases steps with same | ⟨file, rest, stage, committed⟩
    · rw [same]
      exact sound.history
    · have holds := sound.holds index
      simp only [ApplyRun.Holds, stage] at holds
      obtain ⟨_, _, _, fresh⟩ := holds
      rw [committed]
      exact sound.history.commit (fresh trivial)
  · intro other
    by_cases same : other = index
    · subst same
      rw [Program.proceed_own]
      exact ApplyRun.perform_number.trans (sound.numbers other)
    · rw [Program.proceed_other _ _ _ same]
      exact sound.numbers other
  · intro other
    by_cases different : other = index
    · subst different
      rw [Program.proceed_own]
      exact own
    rw [Program.proceed_other _ _ _ different]
    refine (sound.holds other).onward onward ?_ ?_
    · rcases steps with same | ⟨file, _, _, committed⟩
      · change SchemaHistory.committedBy ((server.party index).perform host server.shared).1 _ = _
        rw [same]
      · change SchemaHistory.committedBy ((server.party index).perform host server.shared).1 _ = _
        rw [committed, SchemaHistory.committedBy_commit, sound.numbers, sound.numbers,
          if_neg (Ne.symm different), List.append_nil]
    intro file rest stage fresh
    rcases steps with same | ⟨mine, _, mineStage, committed⟩
    · change SchemaHistory.checksum? ((server.party index).perform host server.shared).1 _ = none
      rw [same]
      exact fresh
    · have apart := sound.apart different stage mineStage
      change SchemaHistory.checksum? ((server.party index).perform host server.shared).1 _ = none
      rw [committed, SchemaHistory.checksum?_commit, fresh, if_neg apart.symm, Option.none_or]

theorem ApplyRun.begin_holds (number : Nat) (invocation : CliCall) :
    (ApplyRun.begin host number invocation.fates invocation.args).Holds host ⟨[], []⟩
      (invocation.files host) := by
  have refused : ∀ text, (ApplyRun.quit ⟨number, .finished none, [], [], invocation.fates⟩
      (some (.error "request.invalid" text))).Holds host ⟨[], []⟩ (invocation.files host) := by
    intro text
    refine ⟨?_, List.nil_subset _⟩
    rintro told ⟨⟩
    simp [CliAnswer.True]
  unfold ApplyRun.begin
  simp only
  split
  · rename_i directory args
    split
    · exact refused _
    · exact refused _
    · rename_i file files listed
      have listing : invocation.files host = host.ordered (file :: files) := by
        simp [CliCall.files, args, listed]
      rw [listing]
      have nonempty : host.ordered (file :: files) ≠ [] := by
        intro empty
        have sorted := congrArg List.length empty
        rw [CliHost.ordered, List.length_insertionSort] at sorted
        cases sorted
      exact @ApplyRun.Past.proceed host _ _ [] _ _ ⟨by simp, by simp, by simp, by simp, rfl⟩ rfl
        nonempty
  · exact refused _

theorem ApplyRun.begin_number (number : Nat) (fates : List Fate) (args : List String) :
    (ApplyRun.begin host number fates args).number = number ∧
      (ApplyRun.begin host number fates args).released = true := by
  unfold ApplyRun.begin
  simp only
  split
  · split
    · exact ⟨rfl, rfl⟩
    · exact ⟨rfl, rfl⟩
    · exact ⟨ApplyRun.proceed_number, ApplyRun.proceed_released _ _⟩
  · exact ⟨rfl, rfl⟩

theorem MigrationServer.start_sound (host : CliHost) (invocations : Nat → CliCall) :
    MigrationServer.Sound host (fun index => (invocations index).files host)
      (.start host invocations) where
  history := ⟨List.nodup_nil, rfl⟩
  accounted lock := by
    change lock ∈ [] ↔ _ ∈ ApplyRun.held (ApplyRun.begin host lock.owner _ _)
    rw [ApplyRun.held_released (ApplyRun.begin_number _ _ _).2]
    simp
  compatible := by rintro lock ⟨⟩
  numbers index := (ApplyRun.begin_number _ _ _).1
  holds index := ApplyRun.begin_holds _ _

variable {invocations : Nat → CliCall}

theorem migrated_append (turns more : List Nat) : migrated host invocations (turns ++ more) =
    Runs.run (migrationProgram host).turn (migrated host invocations turns) more :=
  Runs.run_append _ _ _ _

theorem migrated_sound (turns : List Nat) :
    MigrationServer.Sound host (fun index => (invocations index).files host)
      (migrated host invocations turns) :=
  Runs.run_invariant (MigrationServer.Sound host fun index => (invocations index).files host)
    (fun _ index sound => (sound.turn index).1) turns _ (MigrationServer.start_sound host invocations)

theorem MigrationServer.Sound.run (sound : MigrationServer.Sound host files server)
    (turns : List Nat) :
    server.shared.Onward (Runs.run (migrationProgram host).turn server turns).shared := by
  refine (Runs.run_invariant (fun later => MigrationServer.Sound host files later ∧
    server.shared.Onward later.shared) ?_ turns server ⟨sound, .refl _⟩).2
  rintro later index ⟨holds, onward⟩
  exact ⟨(holds.turn index).1, onward.trans (holds.turn index).2⟩

/-- The run has found all files so far recorded, and will find the others so. -/
structure ApplyRun.Skipping (host : CliHost) (history : SchemaHistory) (files : List SqlFile)
    (run : ApplyRun) : Prop where
  fates : run.fates = []
  applied : run.applied = []
  recorded : ∀ file ∈ files, history.checksum? file.filename = some (host.sha256Hex file.sql)
  stage : match run.stage with
    | .statement phase file rest => (phase = .read ∨ phase = .check) ∧
        ∃ past, files = past ++ file :: rest ∧ run.skipped = past.map SqlFile.filename
    | .finished answer => answer = some (.ok [] (files.map SqlFile.filename))

def ApplyRun.remaining (run : ApplyRun) : Nat :=
  match run.stage with
  | .statement .read _ rest => 2 * rest.length + 2
  | .statement _ _ rest => 2 * rest.length + 1
  | .finished _ => 0

section Skipping

variable {host : CliHost} {history later : SchemaHistory} {run : ApplyRun} {file : SqlFile}
  {files rest : List SqlFile} {server : MigrationServer} {invocations : Nat → CliCall}

theorem ApplyRun.Skipping.onward (skipping : run.Skipping host history files)
    (onward : history.Onward later) : run.Skipping host later files where
  fates := skipping.fates
  applied := skipping.applied
  recorded file member := onward.checksum? (skipping.recorded file member)
  stage := skipping.stage

theorem ApplyRun.skipping_proceed {past : List SqlFile} (fates : run.fates = [])
    (applied : run.applied = []) (skipped : run.skipped = past.map SqlFile.filename)
    (recorded : ∀ file ∈ files, history.checksum? file.filename = some (host.sha256Hex file.sql))
    (split : files = past ++ rest) : (run.proceed rest).Skipping host history files ∧
      (run.proceed rest).remaining = 2 * rest.length := by
  cases rest with
  | nil =>
      rw [List.append_nil] at split
      refine ⟨⟨fates, applied, recorded, ?_⟩, rfl⟩
      simp only [ApplyRun.proceed, ApplyRun.quit, applied, skipped, split]
  | cons file rest => exact ⟨⟨fates, applied, recorded, .inl rfl, past, split, skipped⟩, rfl⟩

/-- Its next statement waits for nobody, changes nothing and brings it nearer to its end. -/
theorem ApplyRun.Skipping.perform (skipping : run.Skipping host history files) :
    run.request history = none ∧ (run.perform host history).1 = history ∧
      (run.perform host history).2.Skipping host history files ∧
        (run.perform host history).2.remaining = run.remaining - 1 := by
  have stages := skipping.stage
  cases stage : run.stage with
  | finished answer =>
      rw [ApplyRun.perform_finished stage]
      exact ⟨by simp only [ApplyRun.request, stage], rfl, skipping,
        by simp only [ApplyRun.remaining, stage]⟩
  | statement phase file rest =>
      simp only [stage] at stages
      obtain ⟨early, past, split, skipped⟩ := stages
      have fates : run.fates.tail = [] := by rw [skipping.fates]; rfl
      rcases early with rfl | rfl
      · simp only [ApplyRun.perform, stage, skipping.fates, List.head?_nil, ApplyRun.statement]
        exact ⟨by simp only [ApplyRun.request, stage], trivial,
          ⟨rfl, skipping.applied, skipping.recorded, .inr rfl, past, split, skipped⟩,
          by simp only [ApplyRun.remaining, ApplyRun.enter, stage]; omega⟩
      · have known := skipping.recorded file (split ▸ by simp)
        simp only [ApplyRun.perform, stage, skipping.fates, List.head?_nil, ApplyRun.statement,
          known, if_true, ApplyRun.skip]
        have next := @ApplyRun.skipping_proceed host history ⟨run.number,
          .statement .check file rest, run.applied, run.skipped ++ [file.filename], []⟩ files rest
          (past ++ [file]) rfl skipping.applied (by simp [skipped]) skipping.recorded
          (by rw [split, List.append_assoc]; rfl)
        refine ⟨by simp only [ApplyRun.request, stage], trivial, next.1, next.2.trans ?_⟩
        simp only [ApplyRun.remaining, stage]
        omega

theorem MigrationServer.Sound.scripts_turn {files : Nat → List SqlFile}
    (sound : MigrationServer.Sound host files server) (index : Nat) {script : RanScript}
    (member : script ∈ ((migrationProgram host).turn server index).shared.scripts) :
    script ∈ server.shared.scripts ∨ script.run = index := by
  unfold Program.turn at member
  split at member
  · change script ∈ ((server.party index).perform host server.shared).1.scripts at member
    rcases @ApplyRun.perform_history host server.shared (server.party index) with
      same | ⟨file, rest, _, committed⟩
    · rw [same] at member
      exact .inl member
    · rw [committed] at member
      rcases List.mem_append.mp member with old | new
      · exact .inl old
      · rw [List.mem_singleton.mp new]
        exact .inr (sound.numbers index)
  · exact .inl member

theorem MigrationServer.Sound.skipping_turn {files : Nat → List SqlFile} {number : Nat}
    (sound : MigrationServer.Sound host files server)
    (skipping : (server.party number).Skipping host server.shared (files number)) (index : Nat) :
    (((migrationProgram host).turn server index).party number).Skipping host
        ((migrationProgram host).turn server index).shared (files number) ∧
      (((migrationProgram host).turn server index).party number).remaining =
        (server.party number).remaining - [index].count number ∧
      ((∀ script ∈ server.shared.scripts, script.run ≠ number) →
        ∀ script ∈ ((migrationProgram host).turn server index).shared.scripts,
          script.run ≠ number) := by
  by_cases same : index = number
  · subst same
    obtain ⟨free, unchanged, next, fewer⟩ := skipping.perform
    have granted : server.grants index ((migrationProgram host).next server index) = true := by
      rw [show (migrationProgram host).next server index = none from free]
      rfl
    rw [Program.turn, if_pos granted, Program.proceed_own, Program.proceed_shared]
    change ((server.party index).perform host server.shared).2.Skipping host
      ((server.party index).perform host server.shared).1 _ ∧
        ((server.party index).perform host server.shared).2.remaining = _ ∧
          (_ → ∀ script ∈ ((server.party index).perform host server.shared).1.scripts, _)
    rw [unchanged, fewer, List.count_singleton_self]
    exact ⟨next, rfl, id⟩
  · have party : ((migrationProgram host).turn server index).party number =
        server.party number := by
      unfold Program.turn
      split
      · exact Program.proceed_other _ _ _ (Ne.symm same)
      · rfl
    rw [party, List.count_singleton, if_neg (by simpa using same), Nat.sub_zero]
    refine ⟨skipping.onward (sound.turn index).2, rfl, ?_⟩
    intro others script member
    rcases sound.scripts_turn index member with old | owner
    · exact others script old
    · rw [owner]
      exact same

theorem MigrationServer.Sound.skipping_run {files : Nat → List SqlFile} {number : Nat} :
    ∀ (turns : List Nat) (server : MigrationServer), MigrationServer.Sound host files server →
      (server.party number).Skipping host server.shared (files number) →
      (∀ script ∈ server.shared.scripts, script.run ≠ number) →
        ((Runs.run (migrationProgram host).turn server turns).party number).Skipping host
            (Runs.run (migrationProgram host).turn server turns).shared (files number) ∧
          ((Runs.run (migrationProgram host).turn server turns).party number).remaining =
            (server.party number).remaining - turns.count number ∧
          ∀ script ∈ (Runs.run (migrationProgram host).turn server turns).shared.scripts,
            script.run ≠ number := by
  intro turns
  induction turns with
  | nil => intro server _ skipping others; exact ⟨skipping, rfl, others⟩
  | cons index rest ih =>
      intro server sound skipping others
      obtain ⟨next, fewer, still⟩ := sound.skipping_turn skipping index
      obtain ⟨last, left, kept⟩ := ih _ (sound.turn index).1 next (still others)
      refine ⟨last, ?_, kept⟩
      rw [Runs.run_cons, left, fewer, Nat.sub_sub, ← List.count_append, List.singleton_append]

theorem ApplyRun.Skipping.finished (skipping : run.Skipping host history files)
    (nothing : run.remaining = 0) :
    run.stage = .finished (some (.ok [] (files.map SqlFile.filename))) := by
  have stages := skipping.stage
  cases stage : run.stage with
  | finished answer =>
      simp only [stage] at stages
      rw [stages]
  | statement phase file rest =>
      simp only [ApplyRun.remaining, stage] at nothing
      cases phase <;> simp at nothing

/-- A run that has not had a turn is where it began, and has committed nothing. -/
theorem migrated_waiting {number : Nat} (turns : List Nat) (waiting : number ∉ turns) :
    (migrated host invocations turns).party number =
        ApplyRun.begin host number (invocations number).fates (invocations number).args ∧
      ∀ script ∈ (migrated host invocations turns).shared.scripts, script.run ≠ number := by
  induction turns using List.reverseRecOn with
  | nil => exact ⟨rfl, by rintro script ⟨⟩⟩
  | append_singleton done index ih =>
      simp only [List.mem_append, List.mem_singleton, not_or] at waiting
      obtain ⟨party, others⟩ := ih waiting.1
      rw [migrated_append]
      refine ⟨?_, ?_⟩
      · rw [← party]
        change ((migrationProgram host).turn _ index).party number = _
        unfold Program.turn
        split
        · exact Program.proceed_other _ _ _ waiting.2
        · rfl
      · intro script member
        rcases (migrated_sound done).scripts_turn index member with old | owner
        · exact others script old
        · rw [owner]
          exact Ne.symm waiting.2

theorem ApplyRun.begin_proceeds {number : Nat} {invocation : CliCall}
    (some_ : invocation.files host ≠ []) :
    ApplyRun.begin host number invocation.fates invocation.args =
      (ApplyRun.mk number (.finished none) [] [] invocation.fates).proceed (invocation.files host) := by
  unfold CliCall.files at some_ ⊢
  split at some_
  · rename_i directory args
    cases listed : host.directory? directory with
    | none => simp [listed, CliHost.ordered] at some_
    | some listing =>
        cases listing with
        | nil => simp [listed, CliHost.ordered] at some_
        | cons file files => simp only [ApplyRun.begin, args, listed, Option.getD_some]
  · exact absurd rfl some_

/-- Once a run over some files has succeeded, another run over them succeeds whoever else is at
work: it applies nothing and skips them all. -/
theorem migration_rerun_skips (host : CliHost) (invocations : Nat → CliCall)
    (turns more : List Nat) (first second : Nat) (applied skipped : List String)
    (succeeded : ((migrated host invocations turns).party first).stage =
      .finished (some (.ok applied skipped)))
    (same : (invocations second).files host = (invocations first).files host)
    (waiting : second ∉ turns) (undisturbed : (invocations second).fates = [])
    (enough : 2 * ((invocations second).files host).length ≤ more.count second) :
    ((migrated host invocations (turns ++ more)).party second).stage =
        .finished (some (.ok [] (((invocations second).files host).map SqlFile.filename))) ∧
      ∀ script ∈ (migrated host invocations (turns ++ more)).shared.scripts,
        script.run ≠ second := by
  have sound := @migrated_sound host invocations turns
  have holds := sound.holds first
  simp only [ApplyRun.Holds, succeeded] at holds
  obtain ⟨_, _, nonempty, behind⟩ := holds.1 _ rfl
  obtain ⟨party, others⟩ := @migrated_waiting host invocations second turns waiting
  have begun := @ApplyRun.skipping_proceed host (migrated host invocations turns).shared
    ⟨second, .finished none, [], [], (invocations second).fates⟩ ((invocations second).files host)
    ((invocations second).files host) [] undisturbed rfl rfl (same ▸ behind.recorded) rfl
  rw [← ApplyRun.begin_proceeds (same ▸ nonempty), ← party] at begun
  obtain ⟨last, left, own⟩ := sound.skipping_run more _ begun.1 others
  rw [migrated_append]
  refine ⟨last.finished ?_, own⟩
  rw [left, begun.2]
  omega

end Skipping

end Runs

namespace Seed

def cliHost : CliHost where
  sha256Hex sql := sql
  upperInvariant := Char.toUpper
  directory? directory :=
    if directory = "migrations" then some [⟨"b.sql", "SELECT 2"⟩, ⟨"A.sql", "SELECT 1"⟩] else none
  duplicateKey := "duplicate key value violates unique constraint \"schema_migrations_pkey\""

end Seed

/-- Two runs begin together, the second of them loses its connection, and a third comes later. -/
theorem migration_rerun_skips_third :
    ((migrated Seed.cliHost (fun number => ⟨["migrations"],
      if number = 1 then [.goes, .goes, .fails "connection lost" true] else []⟩)
        ([0, 1, 0, 1, 1] ++ List.replicate 12 0 ++ [2, 2, 2, 2])).party 2).stage =
      .finished (some (.ok [] ["A.sql", "b.sql"])) :=
  (migration_rerun_skips Seed.cliHost (fun number => ⟨["migrations"],
    if number = 1 then [.goes, .goes, .fails "connection lost" true] else []⟩)
    ([0, 1, 0, 1, 1] ++ List.replicate 12 0) [2, 2, 2, 2] 0 2 ["A.sql", "b.sql"] []
    (by decide +kernel) rfl (by decide) rfl (by decide +kernel)).1

end PaymentWorkflow
