import PaymentWorkflow.AmountProofs
import PaymentWorkflow.FleetCore
import PaymentWorkflow.OutboxProofs

/-!
What the provider sees of a fleet of dispatchers: one request for a payment, repeated at most once
for every lease of its outbox row; and what the outbox says of it.
-/

namespace PaymentWorkflow

/-! What later calls leave of an outbox row and of the request it is for. -/

structure OutboxRow.Becomes (row after : OutboxRow) : Prop where
  id : after.id = row.id
  externalRequestId : after.externalRequestId = row.externalRequestId
  correlationId : after.correlationId = row.correlationId
  leaseVersion : row.leaseVersion ≤ after.leaseVersion

structure ExternalRequest.Becomes (external after : ExternalRequest) : Prop where
  id : after.id = external.id
  amount : after.amount = external.amount
  currency : after.currency = external.currency

structure Db.Bears (db later : Db) : Prop where
  outbox : ∀ row ∈ db.delivery.outbox, ∃ after ∈ later.delivery.outbox, row.Becomes after
  externals : ∀ external ∈ db.delivery.externalRequests, ∃ after ∈ later.delivery.externalRequests,
    external.Becomes after

namespace Db.Bears

variable {first second third db later : Db}

theorem of_eq (outbox : later.delivery.outbox = db.delivery.outbox)
    (externals : later.delivery.externalRequests = db.delivery.externalRequests) :
    db.Bears later where
  outbox := fun row member => ⟨row, outbox ▸ member, rfl, rfl, rfl, Nat.le_refl _⟩
  externals := fun external member => ⟨external, externals ▸ member, rfl, rfl, rfl⟩

theorem refl (db : Db) : db.Bears db := .of_eq rfl rfl

theorem trans (left : first.Bears second) (right : second.Bears third) : first.Bears third where
  outbox := by
    intro row member
    obtain ⟨between, betweenMember, early⟩ := left.outbox row member
    obtain ⟨after, afterMember, late⟩ := right.outbox between betweenMember
    exact ⟨after, afterMember, late.id.trans early.id,
      late.externalRequestId.trans early.externalRequestId,
      late.correlationId.trans early.correlationId,
      Nat.le_trans early.leaseVersion late.leaseVersion⟩
  externals := by
    intro external member
    obtain ⟨between, betweenMember, early⟩ := left.externals external member
    obtain ⟨after, afterMember, late⟩ := right.externals between betweenMember
    exact ⟨after, afterMember, late.id.trans early.id, late.amount.trans early.amount,
      late.currency.trans early.currency⟩

theorem updateOutbox (bears : first.Bears second) (matched : OutboxRow → Bool)
    {change : OutboxRow → OutboxRow} (becomes : ∀ row : OutboxRow, row.Becomes (change row)) :
    first.Bears (second.updateOutbox matched change) := by
  refine bears.trans ⟨fun row member => ?_, fun external member => ⟨external, member, rfl, rfl, rfl⟩⟩
  refine ⟨_, Table.mem_update.mpr ⟨row, member, rfl⟩, ?_⟩
  split
  · exact becomes row
  · exact ⟨rfl, rfl, rfl, Nat.le_refl _⟩

theorem updateExternal (bears : first.Bears second) (matched : ExternalRequest → Bool)
    (state : ExternalState) :
    first.Bears (second.updateExternal matched fun external => { external with state }) := by
  refine bears.trans ⟨fun row member => ⟨row, member, rfl, rfl, rfl, Nat.le_refl _⟩,
    fun external member => ?_⟩
  refine ⟨_, Table.mem_update.mpr ⟨external, member, rfl⟩, ?_⟩
  split <;> exact ⟨rfl, rfl, rfl⟩

theorem insertOutbox (bears : first.Bears second) (externalRequestId : String)
    (correlationId : Nat) : first.Bears (second.insertOutbox externalRequestId correlationId) :=
  bears.trans ⟨fun row member => ⟨row, List.mem_append_left _ member, rfl, rfl, rfl, Nat.le_refl _⟩,
    fun external member => ⟨external, member, rfl, rfl, rfl⟩⟩

theorem insertExternal (bears : first.Bears second) (operation : Operation)
    (correlationId : Nat) : first.Bears (second.insertExternal operation correlationId) :=
  bears.trans ⟨fun row member => ⟨row, member, rfl, rfl, rfl, Nat.le_refl _⟩,
    fun external member => ⟨external, List.mem_append_left _ member, rfl, rfl, rfl⟩⟩

end Db.Bears

section Moves

variable {db later : Db}

theorem OutsideMove.bears (move : OutsideMove db later) : db.Bears later := by
  cases move with
  | ticked | requested | submitted | limitDecided | dispatched => exact .of_eq rfl rfl
  | prepared => exact ((Db.Bears.refl db).insertExternal _ _).insertOutbox _ _
  | requeued => exact (Db.Bears.refl db).insertOutbox _ _
  | outboxLeased =>
      exact (Db.Bears.refl db).updateOutbox _ fun _ => ⟨rfl, rfl, rfl, Nat.le_succ _⟩
  | outboxDelivered =>
      refine Db.Bears.updateExternal ?_ _ _
      exact (Db.Bears.refl db).updateOutbox _ fun _ => ⟨rfl, rfl, rfl, Nat.le_refl _⟩
  | outboxRetried | outboxDied =>
      exact (Db.Bears.refl db).updateOutbox _ fun _ => ⟨rfl, rfl, rfl, Nat.le_refl _⟩
  | received =>
      refine Db.Bears.updateOutbox ?_ _ fun _ => ⟨rfl, rfl, rfl, Nat.le_refl _⟩
      refine Db.Bears.updateExternal ?_ _ _
      exact .of_eq rfl rfl

theorem SystemMoves.bears (moves : SystemMoves db later) (steady : db.Steady) : db.Bears later :=
  moves.invariant db.Bears
    (fun _ _ bears move => bears.trans (.of_eq move.outbox_eq.2 move.outbox_eq.1))
    (fun _ _ bears move => bears.trans move.bears)
    (fun _ _ bears move => bears.trans
      (.of_eq (by rw [move.delivery_eq]) (by rw [move.delivery_eq]))) steady (.refl db)

end Moves

/-! What a claimed row says, as the tables have it. -/

def OutboxClaim.lease (claim : OutboxClaim) : Nat × Nat := (claim.outboxId, claim.leaseVersion)

structure OutboxClaim.Copies (claim : OutboxClaim) (row : OutboxRow) (external : ExternalRequest) :
    Prop where
  id : row.id = claim.outboxId
  externalRequestId : row.externalRequestId = claim.externalRequestId
  correlationId : row.correlationId = claim.correlationId
  leased : 1 ≤ claim.leaseVersion
  past : claim.leaseVersion ≤ row.leaseVersion
  names : external.id = claim.externalRequestId
  amount : claim.amount = some (numericText external.amount)
  currency : claim.currency = some external.currency

def Db.Backs (db : Db) (claim : OutboxClaim) : Prop :=
  ∃ row ∈ db.delivery.outbox, ∃ external ∈ db.delivery.externalRequests, claim.Copies row external

section Claims

variable {db later : Db} {claim : OutboxClaim}

theorem Db.Bears.backs (bears : db.Bears later) (backs : db.Backs claim) : later.Backs claim := by
  obtain ⟨row, rowMember, external, externalMember, copies⟩ := backs
  obtain ⟨after, afterMember, becomes⟩ := bears.outbox row rowMember
  obtain ⟨other, otherMember, same⟩ := bears.externals external externalMember
  refine ⟨after, afterMember, other, otherMember, becomes.id.trans copies.id,
    becomes.externalRequestId.trans copies.externalRequestId,
    becomes.correlationId.trans copies.correlationId, copies.leased,
    Nat.le_trans copies.past becomes.leaseVersion, same.id.trans copies.names, ?_, ?_⟩
  · rw [same.amount]
    exact copies.amount
  · rw [same.currency]
    exact copies.currency

theorem Db.pickOutbox_unique (ledger : db.Ledger) (limit : Option Int) (locked : Nat → Bool) :
    ((db.pickOutbox limit locked).map OutboxRow.id).Nodup := by
  have part : (db.pickOutbox limit locked).Sublist _ :=
    (Table.takeLimit_sublist limit _).trans List.filter_sublist
  exact (Table.sorted_pick ledger.outboxIds (List.perm_insertionSort _ _) part).1

/-- What a claim hands out: the rows it leased, each under the lease it has now. -/
theorem claimOutbox_copies {owner : String} {limit : Option Int} {locked : Nat → Bool}
    {claims : List OutboxClaim} (ledger : db.Ledger) (lattice : db.delivery.Lattice)
    (returned : claimOutbox db owner limit locked = .ok (later, claims)) :
    (claims.map OutboxClaim.outboxId).Nodup ∧ ∀ claim ∈ claims, later.Backs claim ∧
      ∃ row ∈ db.delivery.outbox, row.id = claim.outboxId ∧
        row.leaseVersion + 1 = claim.leaseVersion := by
  have billed := fun {claim} member {external} =>
    @claimOutbox_claim db later owner limit locked claims lattice returned claim member external
  simp only [claimOutbox] at returned
  split at returned
  · cases returned
  split at returned
  · cases returned
  cases returned
  constructor
  · rw [List.map_map]
    exact Db.pickOutbox_unique ledger limit locked
  · intro claim member
    obtain ⟨row, picked, same⟩ := List.mem_map.mp member
    have rowMember := Db.pickOutbox_mem picked
    have key := List.mem_map_of_mem (f := OutboxRow.externalRequestId) rowMember
    rw [lattice.paired] at key
    obtain ⟨external, externalMember, names⟩ := List.mem_map.mp key
    have matches_ : claim.outboxId = row.id ∧ claim.leaseVersion = row.leaseVersion + 1 ∧
        claim.externalRequestId = row.externalRequestId ∧
        claim.correlationId = row.correlationId := by
      rw [← same]
      exact ⟨rfl, rfl, rfl, rfl⟩
    obtain ⟨sameId, sameVersion, sameKey, sameCorrelation⟩ := matches_
    obtain ⟨amount, currency⟩ := billed member externalMember (names.trans sameKey.symm)
    refine ⟨?_, row, rowMember, sameId.symm, sameVersion.symm⟩
    have hit : ((db.pickOutbox limit locked).any fun claimed => claimed.id = row.id) = true :=
      List.any_eq_true.mpr ⟨row, picked, by simp⟩
    refine ⟨_, Table.mem_update.mpr ⟨row, rowMember, rfl⟩, external, externalMember, ?_⟩
    rw [hit, if_pos rfl]
    exact ⟨sameId.symm, sameKey.symm, sameCorrelation.symm, by rw [sameVersion]; exact Nat.succ_pos _,
      Nat.le_of_eq sameVersion, names.trans sameKey.symm, amount, currency⟩

end Claims

namespace Dispatcher

open Interleaving (World)

/-! `_attempt` in its two parts. -/

section Exchange

variable {libraries : Libraries} {config : DispatcherConfig} {reply : Reply} {row : OutboxClaim}

theorem reaction_report {posted : Posted} {report : Report} :
    reaction libraries config row posted = .report report ↔
      ∃ result, posted.result? libraries = some result ∧
        report = ⟨config.owner, row.outboxId, row.leaseVersion, result⟩ := by
  cases posted with
  | raised => simp [reaction, Posted.result?]
  | httpError => simp [reaction, Posted.result?, eq_comm]
  | answer status body =>
      simp only [reaction, Posted.result?]
      cases classified : classifyResponse libraries status body with
      | raised => simp
      | failure errorCode => simp [eq_comm]
      | success paymentId =>
          cases bound : libraries.bind paymentId <;> simp [bound, eq_comm]

/-- What `_attempt` does is the exchange and then the report it comes to. -/
theorem attempt_exchange (db : Db) :
    attempt libraries config reply db row =
      match exchange libraries config reply row with
      | (sent, .report report) => Run.report sent db report
      | (sent, .skipped) => ⟨sent, db, false⟩
      | (sent, .aborted) => ⟨sent, db, true⟩ := by
  simp only [attempt, exchange]
  cases buildProviderRequest config row with
  | none => rfl
  | some request =>
      simp only [reaction]
      cases (postJson reply).2 with
      | raised => rfl
      | httpError => rfl
      | answer status body =>
          simp only
          cases classifyResponse libraries status body with
          | raised => rfl
          | failure errorCode => rfl
          | success paymentId =>
              simp only
              cases libraries.bind paymentId <;> rfl

theorem exchange_report {report : Report} :
    (exchange libraries config reply row).2 = .report report ↔
      ∃ result, (postJson reply).2.result? libraries = some result ∧
        report = ⟨config.owner, row.outboxId, row.leaseVersion, result⟩ := by
  obtain ⟨request, built⟩ := buildProviderRequest_some config row
  simp only [exchange, built, reaction_report]

/-- Whatever the provider answers, an attempt has posted the request of its row and no other. -/
theorem exchange_posts : ∃ request, buildProviderRequest config row = some request ∧
    (exchange libraries config reply row).1.filterMap Event.request? = [request] := by
  obtain ⟨request, built⟩ := buildProviderRequest_some config row
  obtain ⟨fetches, sent, gets⟩ := urlopen_sent .post [] reply
  refine ⟨request, built, ?_⟩
  have none : (fetches.map (Event.ofMethod request)).filterMap Event.request? = [] := by
    rw [List.filterMap_eq_nil_iff]
    intro event member
    obtain ⟨method, inside, rfl⟩ := List.mem_map.mp member
    rw [gets method inside]
    rfl
  simp only [exchange, built, postJson, sent, List.map_cons]
  rw [List.filterMap_cons_some (f := Event.request?) (b := request) rfl, none]

theorem buildProviderRequest_fields {request : ProviderRequest}
    (built : buildProviderRequest config row = some request) :
    providerBody row.externalRequestId row.amount row.currency = some request.body ∧
      request.idempotencyKey = row.externalRequestId ∧
      request.correlation = uuidText row.correlationId := by
  obtain ⟨body, encoded, rfl⟩ := Option.map_eq_some_iff.mp built
  exact ⟨encoded, rfl, rfl⟩

end Exchange

/-! A fleet makes calls of the system, and no others. -/

def Report.call (report : Report) : Call :=
  match report.result with
  | .ok paymentId => .succeedOutbox report.outboxId (some report.owner)
      (some (report.leaseVersion : Int)) (some paymentId)
  | .error errorCode => .failOutbox report.outboxId (some report.owner)
      (some (report.leaseVersion : Int)) (some errorCode)

theorem step_report (system : System) (report : Report) :
    step system report.call = { system with db := report.perform system.db } := by
  obtain ⟨owner, outboxId, leaseVersion, result⟩ := report
  cases result <;>
    simp [Report.call, Report.perform, step, Call.enabled, execDb, handedOut]

theorem step_claim {system : System} {owner : String} {limit : Option Int} {locked : Nat → Bool}
    {leased : Db} {rows : List OutboxClaim}
    (returned : claimOutbox system.db owner limit locked = .ok (leased, rows)) :
    step system (.claimOutbox owner limit locked) = { system with db := leased } := by
  simp [step, Call.enabled, execDb, handedOut, returned, Except.toOption]

inductive Moved (fleet : Fleet) (config : DispatcherConfig) (outlet : Outlet) (batch : Batch) :
    Outlet × Batch → Prop
  | none : Moved fleet config outlet batch (outlet, batch)
  | claimed {locked : Nat → Bool} {leased : Db} {rows : List OutboxClaim} (free : batch = .idle)
      (returned : claimOutbox outlet.system.db config.owner (some config.claimBatch) locked =
        .ok (leased, rows)) :
      Moved fleet config outlet batch (outlet.withDb leased, ⟨rows, Option.none⟩)
  | attempted {row : OutboxClaim} {rest : List OutboxClaim} (reply : Reply)
      (next : batch = ⟨row :: rest, Option.none⟩) :
      Moved fleet config outlet batch
        ({ outlet with attempts := outlet.attempts ++ [⟨config, row, reply⟩] },
          .after rest (exchange fleet.libraries config reply row).2)
  | reported {rows : List OutboxClaim} {report : Report} (due : batch = ⟨rows, some report⟩) :
      Moved fleet config outlet batch
        (outlet.withDb (report.perform outlet.system.db), ⟨rows, Option.none⟩)
  | lost {rows : List OutboxClaim} {report : Report} (due : batch = ⟨rows, some report⟩) :
      Moved fleet config outlet batch (outlet, ⟨rows, Option.none⟩)
  | died : Moved fleet config outlet batch (outlet, .idle)

theorem Fleet.moved (fleet : Fleet) (config : DispatcherConfig) (outlet : Outlet) (batch : Batch)
    (move : Move) : Moved fleet config outlet batch (fleet.move config outlet batch move) := by
  obtain ⟨rows, report⟩ := batch
  cases move with
  | claim locked =>
      cases rows with
      | cons row rest => exact .none
      | nil =>
          cases report with
          | some report => exact .none
          | none =>
              simp only [Fleet.move]
              split
              · exact .none
              · rename_i leased claims returned
                exact .claimed rfl returned
  | attempt reply =>
      cases rows with
      | nil => cases report <;> exact .none
      | cons row rest =>
          cases report with
          | some report => exact .none
          | none => exact .attempted reply rfl
  | report executed =>
      cases report with
      | none => exact .none
      | some report =>
          cases executed with
          | true => exact .reported rfl
          | false => exact .lost rfl
  | die => exact .died

theorem Moved.system {fleet : Fleet} {config : DispatcherConfig} {outlet : Outlet} {batch : Batch}
    {result : Outlet × Batch} (moved : Moved fleet config outlet batch result) :
    result.1.system = outlet.system ∨ ∃ call, result.1.system = step outlet.system call := by
  cases moved with
  | none | attempted | lost | died => exact .inl rfl
  | claimed free returned => exact .inr ⟨_, (step_claim returned).symm⟩
  | @reported rows report due => exact .inr ⟨report.call, (step_report _ report).symm⟩

theorem Fleet.turn_system (fleet : Fleet) (world : World Outlet Batch) (turn : Turn) :
    (fleet.turn world turn).shared.system = world.shared.system ∨
      ∃ call, (fleet.turn world turn).shared.system = step world.shared.system call := by
  cases turn with
  | dispatcher index move => exact (fleet.moved _ _ _ move).system
  | call call => exact .inr ⟨call, rfl⟩

def Served (config : Config) (clock : Nat → Time) (digest : String → String)
    (world : World Outlet Batch) : Prop :=
  ∃ calls, world.shared.system = reached config clock digest calls

section Served

variable {config : Config} {clock : Nat → Time} {digest : String → String}
  {world : World Outlet Batch}

theorem Served.steady (served : Served config clock digest world) :
    world.shared.system.db.Steady := by
  obtain ⟨calls, same⟩ := served
  rw [same]
  exact reached_steady calls

theorem Served.lattice (served : Served config clock digest world) :
    world.shared.system.db.delivery.Lattice := by
  obtain ⟨calls, same⟩ := served
  rw [same]
  exact reached_lattice config clock digest calls

theorem Served.turn (served : Served config clock digest world) (fleet : Fleet) (turn : Turn) :
    Served config clock digest (fleet.turn world turn) := by
  obtain ⟨calls, same⟩ := served
  rcases fleet.turn_system world turn with kept | ⟨call, stepped⟩
  · exact ⟨calls, kept.trans same⟩
  · refine ⟨calls ++ [call], ?_⟩
    rw [stepped, same, reached_append]
    rfl

theorem Fleet.operated_served (fleet : Fleet) (turns : List Turn) :
    Served config clock digest (fleet.operated config clock digest turns) :=
  Runs.run_invariant (Served config clock digest) (fun _ turn served => served.turn fleet turn) turns _
    ⟨[], rfl⟩

end Served

/-! A dispatcher that is left alone does what `run_once` does. -/

section Alone

variable (fleet : Fleet) (index : Nat) (provider : OutboxClaim → Reply)

def Event.isReport : Event → Bool
  | .reported _ => true
  | _ => false

def rowTurns (rows : List OutboxClaim) : List Turn :=
  rows.flatMap fun row =>
    [.dispatcher index (.attempt (provider row)), .dispatcher index (.report true)]

theorem rowTurns_cons (row : OutboxClaim) (rest : List OutboxClaim) :
    rowTurns index provider (row :: rest) = .dispatcher index (.attempt (provider row)) ::
      .dispatcher index (.report true) :: rowTurns index provider rest := by
  simp [rowTurns]

theorem turn_same {Shared Party : Type} {world : World Shared Party} {party : Party}
    (same : world.party index = party) : world.turn index world.shared party = world := by
  rw [World.turn, ← same, Function.update_eq_self]

theorem rowTurns_idle {world : World Outlet Batch} (idle : world.party index = .idle)
    (rows : List OutboxClaim) : Runs.run fleet.turn world (rowTurns index provider rows) = world := by
  have attempts : ∀ reply, fleet.turn world (.dispatcher index (.attempt reply)) = world := by
    intro reply
    simp only [Fleet.turn, idle]
    exact turn_same index idle
  have reports : fleet.turn world (.dispatcher index (.report true)) = world := by
    simp only [Fleet.turn, idle]
    exact turn_same index idle
  induction rows with
  | nil => rfl
  | cons row rest ih =>
      rw [rowTurns_cons, Runs.run_cons, Runs.run_cons, attempts, reports]
      exact ih

theorem sent_unreported (request : ProviderRequest) (methods : List Method) :
    (methods.map (Event.ofMethod request)).filter (fun event => !event.isReport) =
      methods.map (Event.ofMethod request) := by
  rw [List.filter_eq_self]
  intro event member
  obtain ⟨method, _, rfl⟩ := List.mem_map.mp member
  cases method <;> rfl

theorem exchange_unreported (config : DispatcherConfig) (reply : Reply) (row : OutboxClaim) :
    (exchange fleet.libraries config reply row).1.filter (fun event => !event.isReport) =
      (exchange fleet.libraries config reply row).1 := by
  obtain ⟨request, built⟩ := buildProviderRequest_some config row
  simp only [exchange, built]
  exact sent_unreported request _

theorem rowTurns_run (rows : List OutboxClaim) : ∀ world : World Outlet Batch,
    world.party index = ⟨rows, none⟩ →
      let run := runRows fleet.libraries (fleet.config index) ⟨provider, fun _ db => db⟩
        world.shared.system.db rows
      let after := Runs.run fleet.turn world (rowTurns index provider rows)
      after.party index = .idle ∧ after.shared.system.db = run.db ∧
        fleet.events after.shared =
          fleet.events world.shared ++ run.events.filter fun event => !event.isReport := by
  induction rows with
  | nil =>
      intro world start
      exact ⟨start, rfl, (List.append_nil _).symm⟩
  | cons row rest ih =>
      intro world start
      have unreported := exchange_unreported fleet (fleet.config index) (provider row) row
      let made : Outlet := { world.shared with
        attempts := world.shared.attempts ++ [⟨fleet.config index, row, provider row⟩] }
      have attempted : fleet.turn world (.dispatcher index (.attempt (provider row))) =
          world.turn index made
            (.after rest (exchange fleet.libraries (fleet.config index) (provider row) row).2) := by
        simp only [Fleet.turn, Fleet.move, start]
        rfl
      have events : fleet.events made = fleet.events world.shared ++
          (exchange fleet.libraries (fleet.config index) (provider row) row).1 := by
        simp [Fleet.events, made]
      simp only [runRows, attempt_exchange, rowTurns_cons, Runs.run_cons, attempted]
      generalize exchange fleet.libraries (fleet.config index) (provider row) row = exchanged
        at unreported events
      obtain ⟨sent, reaction⟩ := exchanged
      cases reaction with
      | report report =>
          have reported : fleet.turn (world.turn index made (.after rest (.report report)))
              (.dispatcher index (.report true)) = (world.turn index made
                (.after rest (.report report))).turn index
                  (made.withDb (report.perform made.system.db)) ⟨rest, none⟩ := by
            simp only [Fleet.turn, Fleet.move, World.turn_own, World.turn_shared, Batch.after, if_true]
          rw [reported]
          obtain ⟨idle, db, later⟩ := ih _ (World.turn_own _ _ _ _)
          refine ⟨idle, db, later.trans ?_⟩
          show fleet.events made ++ _ = _
          simp only [Run.report, Bool.false_eq_true, if_false, List.filter_append, unreported, events,
            List.append_assoc]
          rfl
      | skipped =>
          have next : (world.turn index made (.after rest .skipped)).party index = ⟨rest, none⟩ :=
            World.turn_own _ _ _ _
          have kept : fleet.turn (world.turn index made (.after rest .skipped))
              (.dispatcher index (.report true)) = world.turn index made (.after rest .skipped) := by
            simp only [Fleet.turn, next, Fleet.move]
            exact turn_same index next
          rw [kept]
          obtain ⟨idle, db, later⟩ := ih _ next
          refine ⟨idle, db, later.trans ?_⟩
          show fleet.events made ++ _ = _
          simp only [Bool.false_eq_true, if_false, List.filter_append, unreported, events,
            List.append_assoc]
          rfl
      | aborted =>
          have idle : (world.turn index made (.after rest .aborted)).party index = .idle :=
            World.turn_own _ _ _ _
          have kept : fleet.turn (world.turn index made (.after rest .aborted))
              (.dispatcher index (.report true)) = world.turn index made (.after rest .aborted) := by
            simp only [Fleet.turn, idle]
            exact turn_same index idle
          rw [kept, rowTurns_idle fleet index provider idle]
          refine ⟨idle, rfl, ?_⟩
          show fleet.events made = _
          simp only [if_true, unreported, events]

/-- The big step of `run_once` is one way for the fleet to go on. -/
theorem runOnce_turns {world : World Outlet Batch} (idle : world.party index = .idle)
    {locked : Nat → Bool} {rows : List OutboxClaim} {run : Run}
    (ran : runOnce fleet.libraries (fleet.config index) ⟨provider, fun _ db => db⟩
      world.shared.system.db locked = .ok (rows, run)) :
    let after := Runs.run fleet.turn world
      (.dispatcher index (.claim locked) :: rowTurns index provider rows)
    after.party index = .idle ∧ after.shared.system.db = run.db ∧
      fleet.events after.shared =
        fleet.events world.shared ++ run.events.filter fun event => !event.isReport := by
  obtain ⟨⟨leased, claims⟩, claimed, rest⟩ := Runs.bind_eq_ok.mp ran
  cases rest
  have next : fleet.turn world (.dispatcher index (.claim locked)) =
      world.turn index (world.shared.withDb leased) ⟨rows, none⟩ := by
    simp only [Fleet.turn, idle, Batch.idle, Fleet.move, claimed]
  rw [Runs.run_cons, next]
  exact rowTurns_run fleet index provider rows _ (World.turn_own _ _ _ _)

end Alone

end Dispatcher

end PaymentWorkflow
