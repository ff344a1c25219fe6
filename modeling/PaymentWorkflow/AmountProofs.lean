import PaymentWorkflow.AmountText
import PaymentWorkflow.DeliveryCalls
import PaymentWorkflow.OperationProofs
import PaymentWorkflow.DispatcherProofs

/-! The amount a client names, wherever it is kept or shown. -/

namespace PaymentWorkflow

structure Db.Priced (db : Db) : Prop where
  operations : ∀ operation ∈ db.payment.operations, isOperationAmount operation.amount = true
  externals : ∀ external ∈ db.delivery.externalRequests, ∃ operation ∈ db.payment.operations,
    operation.id = external.operationId ∧ operation.amount = external.amount

def ExternalRequest.bill (external : ExternalRequest) : Nat × Int :=
  (external.operationId, external.amount)

section Moves

variable {db later : Db}

theorem Db.Priced.kept (priced : db.Priced)
    (operations : ∀ after ∈ later.payment.operations, ∃ operation ∈ db.payment.operations,
      after.amount = operation.amount) (follows : db.Follows later)
    (externals : later.delivery.externalRequests.map ExternalRequest.bill =
      db.delivery.externalRequests.map ExternalRequest.bill) : later.Priced where
  operations := by
    intro after member
    obtain ⟨operation, inside, same⟩ := operations after member
    exact same ▸ priced.operations operation inside
  externals := by
    intro external member
    have billed := List.mem_map_of_mem (f := ExternalRequest.bill) member
    rw [externals] at billed
    obtain ⟨old, oldMember, same⟩ := List.mem_map.mp billed
    simp only [ExternalRequest.bill, Prod.mk.injEq] at same
    obtain ⟨operation, inside, owns, amount⟩ := priced.externals old oldMember
    obtain ⟨after, afterMember, next⟩ := follows operation inside
    exact ⟨after, afterMember, next.id.trans (owns.trans same.1),
      next.amount.trans (amount.trans same.2)⟩

theorem Db.Priced.of_eq (priced : db.Priced)
    (operations : later.payment.operations = db.payment.operations)
    (externals : later.delivery.externalRequests.map ExternalRequest.bill =
      db.delivery.externalRequests.map ExternalRequest.bill) : later.Priced :=
  priced.kept (fun after member => ⟨after, operations ▸ member, rfl⟩) (.of_eq operations) externals

theorem Db.Priced.writeStatus (priced : db.Priced) {operationId : Nat} {status : OperationStatus}
    {eventType : OperationEventType} {payloadHash : String} {processId : Option Nat}
    (follows : db.Follows (db.writeStatus operationId status eventType payloadHash processId)) :
    (db.writeStatus operationId status eventType payloadHash processId).Priced := by
  refine priced.kept ?_ follows rfl
  intro after member
  obtain ⟨old, inside, rfl⟩ := Table.mem_update.mp member
  refine ⟨old, inside, ?_⟩
  split <;> rfl

theorem EngineMove.priced {processId : Nat} (move : EngineMove processId db later)
    (priced : db.Priced) : later.Priced :=
  priced.of_eq move.operations_eq.1 (by rw [move.outbox_eq.1])

theorem OutsideMove.priced (move : OutsideMove db later) (ledger : db.Ledger)
    (priced : db.Priced) : later.Priced := by
  have follows := move.follows ledger
  have bills : ∀ (matched : ExternalRequest → Bool) (state : ExternalState),
      (Table.update matched (fun external => { external with state })
        db.delivery.externalRequests).map ExternalRequest.bill =
          db.delivery.externalRequests.map ExternalRequest.bill := by
    intro matched state
    rw [Table.map_update]
    exact fun _ => rfl
  cases move with
  | @requested requestId principal currency operationKind amount _ named inRange fresh =>
      refine ⟨?_, ?_⟩
      · intro operation member
        rcases List.mem_append.mp member with old | new
        · exact priced.operations operation old
        · obtain rfl := List.mem_singleton.mp new
          exact inRange
      · intro external member
        obtain ⟨operation, inside, facts⟩ := priced.externals external member
        exact ⟨operation, List.mem_append_left _ inside, facts⟩
  | submitted => exact priced.writeStatus follows
  | @prepared operation _ member pinned absent fresh =>
      refine ⟨priced.operations, ?_⟩
      intro external inside
      rcases List.mem_append.mp inside with old | new
      · exact priced.externals external old
      · obtain rfl := List.mem_singleton.mp new
        exact ⟨operation, member, rfl, rfl⟩
  | outboxDelivered => exact priced.of_eq rfl (bills _ .sent)
  | received => exact priced.of_eq rfl (bills _ .confirmed)
  | _ => exact priced.of_eq rfl rfl

theorem CloseMove.priced {target : Target} {operation : Operation}
    (move : CloseMove target operation db later) (ledger : db.Ledger) (priced : db.Priced) :
    later.Priced := by
  have follows := move.follows ledger
  cases move with
  | closed => exact priced.writeStatus follows

end Moves

theorem reached_priced (config : Config) (clock : Nat → Time) (digest : String → String)
    (history : List Call) : (reached config clock digest history).db.Priced :=
  reached_invariant Db.Priced (fun _ _ priced move => move.priced priced)
    (fun _ ledger priced move => move.priced ledger priced)
    (fun _ ledger priced move => move.priced ledger priced)
    (by constructor <;> simp [Db.initial]) history

/-! What is shown of an amount. -/

structure Publishes (value : ℚ) (content : String) : Prop where
  matched : isAmount content = true
  denotes : denoted content = value

def Dispatcher.ProviderRequest.Bills (request : Dispatcher.ProviderRequest) (content : String) :
    Prop :=
  ∃ members, (Python.decode request.body).bind Python.loads = some (.dict members) ∧
    (members.map Prod.fst).Nodup ∧
      (Python.literal "amount", .text (Python.literal content)) ∈ members

structure Db.Conserves (db : Db) (operation : Operation) (value : ℚ) : Prop where
  stored : held operation.amount = value
  shown : ∀ payload id, payload.text? "operationId" = some id → castUuid id = some operation.id →
    ∃ result content, getV1 db payload = .ok (db, .ok "FOUND" result) ∧
      result.text? "amount" = some content ∧ Publishes value content
  pinned : ∀ process ∈ db.workflow.processes, operation.processId = some process.id →
    ∃ content, process.data.text? "amount" = some content ∧ Publishes value content
  external : ∀ external ∈ db.delivery.externalRequests, external.operationId = operation.id →
    held external.amount = value ∧ Publishes value (numericText external.amount)
  claimed : ∀ owner limit locked later claims, claimOutbox db owner limit locked = .ok (later, claims) →
    ∀ claim ∈ claims, ∀ external ∈ db.delivery.externalRequests,
      external.id = claim.externalRequestId → external.operationId = operation.id →
        ∃ content, claim.amount = some content ∧ Publishes value content ∧
          ∀ config, ∃ request, Dispatcher.buildProviderRequest config claim = some request ∧
            request.Bills content

theorem publishes_numericText {hundredths : Int} (inRange : isOperationAmount hundredths = true) :
    Publishes (held hundredths) (numericText hundredths) :=
  ⟨(numericText_amount inRange).1, (numericText_amount inRange).2⟩

theorem claimOutbox_claim {db later : Db} {owner : String} {limit : Option Int}
    {locked : Nat → Bool} {claims : List OutboxClaim} (lattice : db.delivery.Lattice)
    (returned : claimOutbox db owner limit locked = .ok (later, claims)) {claim : OutboxClaim}
    (member : claim ∈ claims) {external : ExternalRequest}
    (present : external ∈ db.delivery.externalRequests)
    (names : external.id = claim.externalRequestId) :
    claim.amount = some (numericText external.amount) ∧ claim.currency = some external.currency := by
  simp only [claimOutbox] at returned
  split at returned
  · cases returned
  split at returned
  · cases returned
  cases returned
  obtain ⟨row, _, rfl⟩ := List.mem_map.mp member
  have found := Table.lookup_of_mem lattice.externalIds present
  rw [names] at found
  simp only [found, Option.map_some, and_self]

theorem Dispatcher.buildProviderRequest_bills (config : DispatcherConfig) {claim : OutboxClaim}
    {content currency : String} (amount : claim.amount = some content)
    (paid : claim.currency = some currency) :
    ∃ request, buildProviderRequest config claim = some request ∧ request.Bills content := by
  obtain ⟨request, built⟩ := buildProviderRequest_some config claim
  have distinct : [Python.literal "operationId", Python.literal "amount",
      Python.literal "currency"].Nodup := by decide
  refine ⟨request, built, [
    (Python.literal "operationId", .text (Python.literal claim.externalRequestId)),
    (Python.literal "amount", .text (Python.literal content)),
    (Python.literal "currency", .text (Python.literal currency))], ?_, distinct, by simp⟩
  obtain ⟨body, encoded, rfl⟩ := Option.map_eq_some_iff.mp built
  rw [providerBody, providerValue, amount, paid] at encoded
  rw [Python.decode_encode encoded, Option.bind_some]
  refine Python.loads_dumps_unsorted (List.cons_ne_nil _ _) ?_ distinct
  intro member inside
  simp only [List.mem_cons, List.not_mem_nil, or_false] at inside
  rcases inside with rfl | rfl | rfl
  all_goals exact Python.Member.flat_text (Python.literal_scalar _) (Python.literal_scalar _)

theorem Db.Priced.conserves {db : Db} (priced : db.Priced) (sound : db.Sound) (ledger : db.Ledger)
    (pins : db.Pins) (lattice : db.delivery.Lattice) {operation : Operation}
    (member : operation ∈ db.payment.operations) : db.Conserves operation (held operation.amount) := by
  have published := publishes_numericText (priced.operations operation member)
  have billed : ∀ external ∈ db.delivery.externalRequests, external.operationId = operation.id →
      external.amount = operation.amount := by
    intro external inside owns
    obtain ⟨owner, ownerMember, same, amount⟩ := priced.externals external inside
    have equal := Table.key_unique ledger.operationIds ownerMember member (same.trans owns)
    rw [← amount, equal]
  refine ⟨rfl, ?_, ?_, ?_, ?_⟩
  · intro payload id named cast
    have found : db.payment.operation? operation.id = some operation :=
      Table.lookup_of_mem ledger.operationIds member
    simp only [getV1, withOperation, named, cast, found]
    exact ⟨_, _, rfl, rfl, published⟩
  · intro process inside pin
    have before := pins.operations operation member
    rw [Db.Pinned, pin] at before
    obtain ⟨_, _, other, otherMember, same, started⟩ := before
    obtain rfl := Table.key_unique sound.rows.processIds otherMember inside same
    refine ⟨numericText operation.amount, ?_, published⟩
    rw [started.data]
    rfl
  · intro external inside owns
    rw [billed external inside owns]
    exact ⟨rfl, published⟩
  · intro owner limit locked later claims returned claim claimMember external inside names owns
    obtain ⟨amount, currency⟩ := claimOutbox_claim lattice returned claimMember inside names
    rw [billed external inside owns] at amount
    exact ⟨_, amount, published,
      fun config => Dispatcher.buildProviderRequest_bills config amount currency⟩

/-! A request. -/

structure Requests (db : Db) (context : Context) (payload : Json) (requestId principal : String)
    (operationKind : OperationKind) : Prop where
  keyed : context.requestId = some requestId
  named : requestId ≠ ""
  known : context.principal = some principal
  kind : payload.text? "operationKind" = some operationKind.text
  currency : payload.text? "currency" = some "RUB"
  fresh : (db.payment.operations.any fun row =>
    row.principal = principal ∧ row.requestId = requestId) = false

section Request

variable {db changed : Db} {context : Context} {payload : Json} {content : String}

theorem requestV1_stores (matched : isAmount content = true)
    (carries : payload.text? "amount" = some content) {requestId principal : String}
    {operationKind : OperationKind}
    (requests : Requests db context payload requestId principal operationKind) :
    ∃ hundredths result, held hundredths = denoted content ∧ requestV1 db context payload =
      .ok ((db.insertOperation requestId principal operationKind hundredths
        "RUB").insertOperationEvent db.nextId .created (db.digest payload.render),
          .ok "CREATED" result) ∧
        result.text? "amount" = some content := by
  obtain ⟨number, hundredths, cast, inRange, same⟩ := castNumeric_amount matched
  have kind : OperationKind.ofText? operationKind.text = some operationKind := by
    cases operationKind <;> rfl
  simp only [requestV1, requests.keyed, requests.named, carries, number, cast, requests.known,
    requests.kind, requests.currency, kind, inRange, requests.fresh, if_false, not_true, ne_eq,
    or_self, Bool.false_eq_true]
  exact ⟨_, _, same, rfl, rfl⟩

theorem requestV1_ok (matched : isAmount content = true)
    (carries : payload.text? "amount" = some content) {outcome : String} {result : Json}
    (returned : requestV1 db context payload = .ok (changed, .ok outcome result)) :
    result.text? "amount" = some content ∧ ∃ operation ∈ changed.payment.operations,
      result.text? "operationId" = some (uuidText operation.id) ∧
        held operation.amount = denoted content := by
  obtain ⟨number, hundredths, cast, inRange, same⟩ := castNumeric_amount matched
  simp only [requestV1] at returned
  split at returned
  · cases returned
  split at returned
  · cases returned
  simp only [carries, number, cast, Bool.false_eq_true, if_false] at returned
  split at returned
  · split at returned
    · cases returned
    split at returned
    · cases returned
    split at returned
    · cases returned
    cases returned
    exact ⟨rfl, _, List.mem_append_right _ (List.mem_singleton_self _), rfl, same⟩
  · cases returned

end Request

/--
The amount of a request is stored as it denotes, and from then on every place that keeps or shows
it denotes the same, in a text of the schema.
-/
theorem amount_conserved {content : String} (matched : isAmount content = true) :
    (∀ (db : Db) (context : Context) (payload : Json) (requestId principal : String)
      (operationKind : OperationKind), payload.text? "amount" = some content →
        Requests db context payload requestId principal operationKind →
          ∃ hundredths result, held hundredths = denoted content ∧ requestV1 db context payload =
            .ok ((db.insertOperation requestId principal operationKind hundredths
              "RUB").insertOperationEvent db.nextId .created (db.digest payload.render),
                .ok "CREATED" result) ∧
              result.text? "amount" = some content) ∧
    ∀ (config : Config) (clock : Nat → Time) (digest : String → String) (history rest : List Call)
      (module action : String) (version : Option Int) (context : Context) (payload : Json)
      (row : ActionRow) (after : Db) (outcome : String) (result : Json),
      payload.text? "amount" = some content →
      catalogRow config module action version = .ok row →
      target? row.targetSchema row.targetFunction = some .requestV1 →
      invoke (reached config clock digest history).db module action version context payload =
        .ok (after, .ok outcome result) →
      result.text? "amount" = some content ∧
      ∃ operation ∈ (reached config clock digest (history ++
        .invoke module action version context payload :: rest)).db.payment.operations,
        result.text? "operationId" = some (uuidText operation.id) ∧
        (reached config clock digest (history ++
          .invoke module action version context payload :: rest)).db.Conserves operation
            (denoted content) := by
  refine ⟨fun db context payload requestId principal operationKind carries requests =>
    requestV1_stores matched carries requests, ?_⟩
  intro config clock digest history rest module action version context payload row after outcome
    result carries found target returned
  let later := reached config clock digest (history ++
    .invoke module action version context payload :: rest)
  have steady : (reached config clock digest history).db.Steady := reached_steady history
  have stepped : (step (reached config clock digest history)
      (.invoke module action version context payload)).db = after := by
    simp [step, Call.enabled, execDb, returned, Except.toOption]
  have moves : SystemMoves after later.db := by
    rw [← stepped]
    show SystemMoves _ (reached config clock digest _).db
    rw [reached_append]
    exact run_moves rest _ ((step_moves steady _).steady steady)
  have afterSteady : after.Steady := stepped ▸ (step_moves steady _).steady steady
  obtain ⟨_, _, _, refused⟩ | ⟨other, known, changed, located, named, _, ran, recorded⟩ :=
    invoke_cases returned
  · cases refused
  rw [reached_config, found] at located
  cases located
  rw [target] at named
  cases named
  obtain ⟨echoed, operation, member, shown, same⟩ := requestV1_ok matched carries ran
  have kept : operation ∈ after.payment.operations := by
    rw [(recordDispatch_tables recorded).2]
    exact member
  obtain ⟨next, nextMember, follows⟩ := moves.follows afterSteady operation kept
  have held := (reached_priced config clock digest _).conserves (reached_steady _).calm.sound
    (reached_steady _).ledger (reached_pins _) (reached_lattice config clock digest _) nextMember
  refine ⟨echoed, next, nextMember, by rw [follows.id]; exact shown, ?_⟩
  rw [← same, ← follows.amount]
  exact held

def Seed.ten : Json := .object [
  ("operationKind", .text "PAYMENT_EXECUTION"), ("amount", .text "10.00"), ("currency", .text "RUB")]

def accepted : Except SqlError (Db × Envelope) → Bool
  | .ok (_, .ok _ _) => true
  | _ => false

theorem accepted_answer {answer : Except SqlError (Db × Envelope)} (accepts : accepted answer = true) :
    ∃ after outcome result, answer = .ok (after, .ok outcome result) := by
  unfold accepted at accepts
  split at accepts
  · exact ⟨_, _, _, rfl⟩
  · cases accepts

theorem amount_conserved_prepared :
    ∃ operation ∈ (seeded (.invoke "payment" "request" none (Seed.caller "payment:write") Seed.ten ::
      Seed.prepared.tail)).db.payment.operations,
      (seeded (.invoke "payment" "request" none (Seed.caller "payment:write") Seed.ten ::
        Seed.prepared.tail)).db.Conserves operation (denoted "10.00") := by
  have created : accepted (invoke (reached Seed.config (fun tick => (tick : Int)) id []).db "payment"
      "request" none (Seed.caller "payment:write") Seed.ten) = true := by decide +kernel
  obtain ⟨after, outcome, result, returned⟩ := accepted_answer created
  obtain ⟨_, operation, member, _, conserves⟩ := (@amount_conserved "10.00" (by decide)).2
    Seed.config (fun tick => (tick : Int)) id [] Seed.prepared.tail "payment" "request" none
    (Seed.caller "payment:write") Seed.ten _ after outcome result rfl rfl rfl returned
  rw [List.nil_append] at member conserves
  unfold seeded
  exact ⟨operation, member, conserves⟩

end PaymentWorkflow
