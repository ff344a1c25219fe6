import PaymentWorkflow.SystemCore

/-!
Workers as concurrent sessions: the transaction of a worker first runs the action, then calls
`finish_job`, then commits, and everything else may happen in between. Only the lock of the
job row is modelled; where other row locks would make a session wait, here it goes on.
-/

namespace PaymentWorkflow

/-- The committed database after a transaction that found `before` and left `after` has
committed on top of what others committed meanwhile; `none` where a primary key is taken. -/
def Db.merge? (before after current : Db) : Option Db := do
  let processes ← Table.merge? Process.id before.workflow.processes after.workflow.processes
    current.workflow.processes
  let steps ← Table.merge? StepInstance.id before.workflow.steps after.workflow.steps
    current.workflow.steps
  let jobs ← Table.merge? Job.id before.workflow.jobs after.workflow.jobs current.workflow.jobs
  let attempts ← Table.merge? Attempt.id before.workflow.attempts after.workflow.attempts
    current.workflow.attempts
  let signals ← Table.merge? Signal.messageId before.workflow.signals after.workflow.signals
    current.workflow.signals
  let externalRequests ← Table.merge? ExternalRequest.id before.delivery.externalRequests
    after.delivery.externalRequests current.delivery.externalRequests
  let outbox ← Table.merge? OutboxRow.id before.delivery.outbox after.delivery.outbox
    current.delivery.outbox
  let receipts ← Table.merge? Receipt.messageId before.delivery.receipts after.delivery.receipts
    current.delivery.receipts
  let inbox ← Table.merge? InboxRow.messageId before.delivery.inbox after.delivery.inbox
    current.delivery.inbox
  let operations ← Table.merge? Operation.id before.payment.operations after.payment.operations
    current.payment.operations
  let decisions ← Table.merge? Decision.id before.payment.decisions after.payment.decisions
    current.payment.decisions
  let dispatches ← Table.merge? Dispatch.correlationId before.dispatches after.dispatches
    current.dispatches
  some { current with
    workflow := {
      processes, steps, jobs, attempts, signals
      events := current.workflow.events ++
        after.workflow.events.drop before.workflow.events.length }
    delivery := { externalRequests, outbox, receipts, inbox }
    payment := {
      operations, decisions
      operationEvents := current.payment.operationEvents ++
        after.payment.operationEvents.drop before.payment.operationEvents.length }
    dispatches }

/-- Ids given out and clock readings taken do not come back, whatever is rolled back. -/
def Db.advanced (db later : Db) : Db := { db with nextId := later.nextId, ticks := later.ticks }

inductive Phase
  | acted (outcome : String)
  | finished
deriving DecidableEq

/-- An open transaction: nothing it wrote is visible outside it. -/
structure Session where
  worker : Nat
  claimed : ClaimedJob
  before : Db
  after : Db
  phase : Phase

structure World where
  db : Db
  handed : List ClaimedJob
  sessions : List Session
  committed : List ClaimedJob

namespace World

def session? (world : World) (worker : Nat) : Option Session :=
  Table.lookup Session.worker worker world.sessions

def locks (world : World) (jobId : Nat) : Bool :=
  world.sessions.any fun session => session.phase = .finished ∧ session.claimed.jobId = jobId

def close (world : World) (worker : Nat) : World :=
  { world with sessions := world.sessions.filter fun session => session.worker ≠ worker }

end World

inductive Event
  | claim (owner : String) (batch leaseMs : Option Int) (locked : Nat → Bool)
  | act (worker : Nat) (claimed : ClaimedJob)
  | finish (worker : Nat)
  | commit (worker : Nat)
  | crash (worker : Nat)
  | fail (jobId : Nat) (owner : Option String) (leaseVersion : Int) (errorCode : Option String)
      (retryable : Bool)
  | other (call : Call)

def Call.isForeign : Call → Bool
  | .claimJobs .. | .finishJob .. | .failJob .. | .work _ => false
  | _ => true

namespace World

def act (world : World) (worker : Nat) (claimed : ClaimedJob) : World :=
  if (world.session? worker).isSome ∨ claimed ∉ world.handed then world
  else
    match runAction world.db claimed with
    | .error _ => world
    | .ok (acted, outcome) =>
        { world with
          db := world.db.advanced acted
          sessions := world.sessions ++ [⟨worker, claimed, world.db, acted, .acted outcome⟩] }

/-- `finish_job` sees its own transaction's writes over what is committed by now. -/
def finish (world : World) (session : Session) (outcome : String) : World :=
  match Db.merge? session.before session.after world.db with
  | none => world.close session.worker
  | some view =>
      match finishClaimed view session.claimed outcome with
      | .error _ => world.close session.worker
      | .ok (finished, _) =>
          { world.close session.worker with
            db := world.db.advanced finished
            sessions := (world.close session.worker).sessions ++
              [{ session with before := world.db, after := finished, phase := .finished }] }

def commit (world : World) (session : Session) : World :=
  match Db.merge? session.before session.after world.db with
  | none => world.close session.worker
  | some merged =>
      { world.close session.worker with
        db := merged
        committed := world.committed ++ [session.claimed] }

def step (world : World) : Event → World
  | .claim owner batch leaseMs locked =>
      match claimJobs world.db owner batch leaseMs fun id => locked id || world.locks id with
      | .error _ => world
      | .ok (claimed, handed) => { world with db := claimed, handed := world.handed ++ handed }
  | .act worker claimed => world.act worker claimed
  | .finish worker =>
      match world.session? worker with
      | none => world
      | some session =>
          match session.phase with
          | .finished => world
          | .acted outcome =>
              -- it waits for the row lock
              if world.locks session.claimed.jobId then world else world.finish session outcome
  | .commit worker =>
      match world.session? worker with
      | none => world
      | some session => if session.phase = .finished then world.commit session else world
  | .crash worker => world.close worker
  | .fail jobId owner leaseVersion errorCode retryable =>
      if world.locks jobId then world
      else
        match failJob world.db jobId owner (some leaseVersion) errorCode retryable with
        | .error _ => world
        | .ok (failed, _) => { world with db := failed }
  | .other call =>
      if call.isForeign then { world with db := (execDb world.db call).getD world.db } else world

def effects (world : World) (jobId : Nat) : Nat :=
  (world.committed.filter fun claimed => claimed.jobId = jobId).length

end World

end PaymentWorkflow
