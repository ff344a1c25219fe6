import PaymentWorkflow.RowLocks
import PaymentWorkflow.Table
import Mathlib.Data.List.Sort

/-!
`migration apply` of the CLI statement by statement, for any number of runs on one database. What
a script does to the schema is the server's; here a script has run once its transaction commits.
-/

namespace PaymentWorkflow

open RowLocks

structure SchemaMigration where
  filename : String
  checksum : String
deriving DecidableEq

structure SqlFile where
  filename : String
  sql : String
deriving DecidableEq

structure RanScript extends SqlFile where
  run : Nat
deriving DecidableEq

structure SchemaHistory where
  migrations : List SchemaMigration
  scripts : List RanScript

inductive CliAnswer
  | ok (applied skipped : List String)
  | error (code message : String)
deriving DecidableEq

/-- What the CLI finds around it: `HashUtil.Sha256Hex`, the casing of `StringComparer.OrdinalIgnoreCase`,
`Directory.GetFiles` and the server's text for a taken primary key. -/
structure CliHost where
  sha256Hex : String → String
  upperInvariant : Char → Char
  directory? : String → Option (List SqlFile)
  duplicateKey : String

/-- How a statement comes out: it may raise, or the process may be gone, and in both cases the
server may have carried it out all the same. -/
inductive Fate
  | goes
  | fails (message : String) (reached : Bool)
  | killed (reached : Bool)
deriving DecidableEq

inductive ApplyPhase
  | read | check | open | script | finalize | insert | commit
deriving DecidableEq

inductive ApplyStage
  | statement (phase : ApplyPhase) (file : SqlFile) (rest : List SqlFile)
  | finished (answer : Option CliAnswer)
deriving DecidableEq

structure ApplyRun where
  number : Nat
  stage : ApplyStage
  applied : List String
  skipped : List String
  fates : List Fate

/-! The order of the files. -/

def utf16Units (character : Char) : List Nat :=
  let point := character.toNat
  if point < 0x10000 then [point]
  else [0xD800 + (point - 0x10000) / 0x400, 0xDC00 + (point - 0x10000) % 0x400]

namespace CliHost

variable (host : CliHost)

def ordinalKey (name : String) : List Nat :=
  name.toList.flatMap fun character => utf16Units (host.upperInvariant character)

def ordinalIgnoreCase (left right : String) : Bool :=
  !(host.ordinalKey right).lex (host.ordinalKey left)

def ordered (files : List SqlFile) : List SqlFile :=
  files.insertionSort fun left right => host.ordinalIgnoreCase left.filename right.filename

def record (file : SqlFile) : SchemaMigration := ⟨file.filename, host.sha256Hex file.sql⟩

end CliHost

namespace SchemaHistory

def checksum? (history : SchemaHistory) (filename : String) : Option String :=
  (Table.lookup SchemaMigration.filename filename history.migrations).map SchemaMigration.checksum

def commit (history : SchemaHistory) (host : CliHost) (number : Nat) (file : SqlFile) :
    SchemaHistory where
  migrations := history.migrations ++ [host.record file]
  scripts := history.scripts ++ [{ toSqlFile := file, run := number }]

end SchemaHistory

namespace ApplyRun

def quit (run : ApplyRun) (answer : Option CliAnswer) : ApplyRun :=
  { run with stage := .finished answer }

def failed (run : ApplyRun) (file : SqlFile) (message : String) : ApplyRun :=
  run.quit (some (.error "migration.failed"
    ("failed to apply " ++ file.filename ++ ": " ++ message)))

def changed (run : ApplyRun) (file : SqlFile) : ApplyRun :=
  run.quit (some (.error "manifest.conflict"
    ("migration file changed after apply: " ++ file.filename)))

def proceed (run : ApplyRun) : List SqlFile → ApplyRun
  | [] => run.quit (some (.ok run.applied run.skipped))
  | file :: rest => { run with stage := .statement .read file rest }

def skip (run : ApplyRun) (file : SqlFile) (rest : List SqlFile) : ApplyRun :=
  { run with skipped := run.skipped ++ [file.filename] }.proceed rest

def apply (run : ApplyRun) (file : SqlFile) (rest : List SqlFile) : ApplyRun :=
  { run with applied := run.applied ++ [file.filename] }.proceed rest

def enter (run : ApplyRun) (phase : ApplyPhase) (file : SqlFile) (rest : List SqlFile) : ApplyRun :=
  { run with stage := .statement phase file rest }

def begin (host : CliHost) (number : Nat) (fates : List Fate) (args : List String) : ApplyRun :=
  let run : ApplyRun := ⟨number, .finished none, [], [], fates⟩
  match args with
  | [directory] =>
      match host.directory? directory with
      | none => run.quit (some (.error "request.invalid"
          ("migration directory not found: " ++ directory)))
      | some [] => run.quit (some (.error "request.invalid" "no migration files found"))
      | some (file :: files) => run.proceed (host.ordered (file :: files))
  | _ => run.quit (some (.error "request.invalid" "usage: migration apply <directory>"))

def statement (host : CliHost) (history : SchemaHistory) (run : ApplyRun) (phase : ApplyPhase)
    (file : SqlFile) (rest : List SqlFile) : SchemaHistory × ApplyRun :=
  match phase with
  | .read => (history, run.enter .check file rest)
  | .check =>
      match history.checksum? file.filename with
      | none => (history, run.enter .open file rest)
      | some existing =>
          if existing = host.sha256Hex file.sql then (history, run.skip file rest)
          else (history, run.changed file)
  | .open => (history, run.enter .script file rest)
  | .script => (history, run.enter .finalize file rest)
  | .finalize => (history, run.enter .insert file rest)
  | .insert =>
      if (history.checksum? file.filename).isSome then (history, run.failed file host.duplicateKey)
      else (history, run.enter .commit file rest)
  | .commit => (history.commit host run.number file, run.apply file rest)

/-- What a statement leaves whose reply is lost; short of a COMMIT all of it is rolled back. -/
def unanswered (host : CliHost) (history : SchemaHistory) (run : ApplyRun) (phase : ApplyPhase)
    (file : SqlFile) (reached : Bool) : SchemaHistory :=
  if reached ∧ phase = .commit then history.commit host run.number file else history

def perform (host : CliHost) (history : SchemaHistory) (run : ApplyRun) :
    SchemaHistory × ApplyRun :=
  match run.stage with
  | .finished _ => (history, run)
  | .statement phase file rest =>
      let onward := { run with fates := run.fates.tail }
      match run.fates.head? with
      | none | some .goes => onward.statement host history phase file rest
      | some (.fails message reached) =>
          (run.unanswered host history phase file reached, onward.failed file message)
      | some (.killed reached) =>
          (run.unanswered host history phase file reached, onward.quit none)

/-- The INSERT waits for whoever enters the same key, and fails at once on a committed row. -/
def request (history : SchemaHistory) (run : ApplyRun) : Option (RowLocks.Request String) :=
  match run.stage with
  | .statement .insert file _ =>
      if (history.checksum? file.filename).isSome then none else some ⟨file.filename, .update⟩
  | _ => none

def released (run : ApplyRun) : Bool :=
  match run.stage with
  | .statement .commit _ _ => false
  | _ => true

end ApplyRun

def migrationProgram (host : CliHost) : Program SchemaHistory ApplyRun String where
  request := ApplyRun.request
  perform := ApplyRun.perform host
  ended := ApplyRun.released

abbrev MigrationServer := Server SchemaHistory ApplyRun String

structure CliCall where
  args : List String
  fates : List Fate
deriving DecidableEq

def CliCall.files (host : CliHost) (invocation : CliCall) : List SqlFile :=
  match invocation.args with
  | [directory] => host.ordered ((host.directory? directory).getD [])
  | _ => []

def MigrationServer.start (host : CliHost) (invocations : Nat → CliCall) : MigrationServer where
  shared := ⟨[], []⟩
  party number := .begin host number (invocations number).fates (invocations number).args
  locks := []

def migrated (host : CliHost) (invocations : Nat → CliCall) (turns : List Nat) :
    MigrationServer :=
  Runs.run (migrationProgram host).turn (.start host invocations) turns

end PaymentWorkflow
