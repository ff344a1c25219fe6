import PaymentWorkflow.DispatcherProofs
import PaymentWorkflow.Interleaving

/-!
Any number of dispatchers on one database. Each goes through `run_once` again and again, a
statement or a request at a time, and may die before any of them, while the other calls go on.
-/

namespace PaymentWorkflow.Dispatcher

open Interleaving (World)

inductive Reaction
  | report (report : Report)
  | skipped
  | aborted

def reaction (libraries : Libraries) (config : DispatcherConfig) (row : OutboxClaim) :
    Posted → Reaction
  | .raised => .aborted
  | .httpError => .report ⟨config.owner, row.outboxId, row.leaseVersion,
      .error "transport.error.retryable"⟩
  | .answer status body =>
      match classifyResponse libraries status body with
      | .raised => .aborted
      | .failure errorCode => .report ⟨config.owner, row.outboxId, row.leaseVersion,
          .error errorCode⟩
      | .success paymentId =>
          match libraries.bind paymentId with
          | .taken stored => .report ⟨config.owner, row.outboxId, row.leaseVersion, .ok stored⟩
          | .refused => .skipped
          | .raised => .aborted

def exchange (libraries : Libraries) (config : DispatcherConfig) (reply : Reply)
    (row : OutboxClaim) : List Event × Reaction :=
  match buildProviderRequest config row with
  | none => ([], .aborted)
  | some request =>
      let (methods, posted) := postJson reply
      (methods.map (Event.ofMethod request), reaction libraries config row posted)

structure Batch where
  rows : List OutboxClaim
  report : Option Report

def Batch.idle : Batch := ⟨[], none⟩

def Batch.after (rest : List OutboxClaim) : Reaction → Batch
  | .report report => ⟨rest, some report⟩
  | .skipped => ⟨rest, none⟩
  | .aborted => .idle

structure Attempt where
  config : DispatcherConfig
  row : OutboxClaim
  reply : Reply

structure Outlet where
  system : System
  attempts : List Attempt

structure Fleet where
  libraries : Libraries
  config : Nat → DispatcherConfig

inductive Move
  | claim (locked : Nat → Bool)
  | attempt (reply : Reply)
  | report (executed : Bool)
  | die

inductive Turn
  | dispatcher (index : Nat) (move : Move)
  | call (call : Call)

def Outlet.withDb (outlet : Outlet) (db : Db) : Outlet :=
  { outlet with system := { outlet.system with db } }

namespace Fleet

variable (fleet : Fleet)

/-- A move that is not the next one of the dispatcher is none. A connection that is lost takes the
report with it, before or after the call is executed: `run_once` goes on with the next row. -/
def move (config : DispatcherConfig) (outlet : Outlet) (batch : Batch) : Move → Outlet × Batch
  | .claim locked =>
      match batch with
      | ⟨[], none⟩ =>
          match claimOutbox outlet.system.db config.owner (some config.claimBatch) locked with
          | .error _ => (outlet, batch)
          | .ok (leased, rows) => (outlet.withDb leased, ⟨rows, none⟩)
      | _ => (outlet, batch)
  | .attempt reply =>
      match batch with
      | ⟨row :: rest, none⟩ =>
          ({ outlet with attempts := outlet.attempts ++ [⟨config, row, reply⟩] },
            .after rest (exchange fleet.libraries config reply row).2)
      | _ => (outlet, batch)
  | .report executed =>
      match batch with
      | ⟨rows, some report⟩ =>
          (if executed then outlet.withDb (report.perform outlet.system.db) else outlet,
            ⟨rows, none⟩)
      | _ => (outlet, batch)
  | .die => (outlet, .idle)

def turn (world : World Outlet Batch) : Turn → World Outlet Batch
  | .dispatcher index move =>
      let (outlet, batch) := fleet.move (fleet.config index) world.shared (world.party index) move
      world.turn index outlet batch
  | .call call =>
      { world with shared := { world.shared with system := step world.shared.system call } }

def initial (config : Config) (clock : Nat → Time) (digest : String → String) :
    World Outlet Batch :=
  ⟨⟨fresh config clock digest, []⟩, fun _ => .idle⟩

def operated (config : Config) (clock : Nat → Time) (digest : String → String)
    (turns : List Turn) : World Outlet Batch :=
  Runs.run fleet.turn (Fleet.initial config clock digest) turns

def events (outlet : Outlet) : List Event :=
  outlet.attempts.flatMap fun attempt =>
    (exchange fleet.libraries attempt.config attempt.reply attempt.row).1

end Fleet

def Event.request? : Event → Option ProviderRequest
  | .posted request => some request
  | _ => none

def Fleet.posts (fleet : Fleet) (outlet : Outlet) : List ProviderRequest :=
  (fleet.events outlet).filterMap Event.request?

end PaymentWorkflow.Dispatcher
