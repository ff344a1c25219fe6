import Mathlib
import PaymentWorkflow.OperationProofs
import PaymentWorkflow.Machine

/-!
The payment tables over whole runs: what the triggers of the operations and of their events would
refuse is never written, and each operation goes with at most one process.
-/

namespace PaymentWorkflow

structure OperationIdentity where
  id : Nat
  requestId : String
  principal : String
  operationKind : OperationKind
  amount : Int
  currency : String
deriving DecidableEq

def Operation.identity (operation : Operation) : OperationIdentity :=
  ⟨operation.id, operation.requestId, operation.principal, operation.operationKind,
    operation.amount, operation.currency⟩

def Operation.requestKey (operation : Operation) : String × String :=
  (operation.principal, operation.requestId)

structure Db.Appends (db later : Db) : Prop where
  operations : db.payment.operations.map Operation.identity <+:
    later.payment.operations.map Operation.identity
  events : db.payment.operationEvents <+: later.payment.operationEvents

section Moves

variable {first second third db later : Db}

theorem Db.Appends.of_eq (operations : later.payment.operations = db.payment.operations)
    (events : later.payment.operationEvents = db.payment.operationEvents) : db.Appends later := by
  constructor
  · exact ⟨[], by rw [operations, List.append_nil]⟩
  · exact ⟨[], by rw [events, List.append_nil]⟩

theorem Db.Appends.trans (left : first.Appends second) (right : second.Appends third) :
    first.Appends third :=
  ⟨left.operations.trans right.operations, left.events.trans right.events⟩

theorem Db.identities_writeStatus (operationId : Nat) (status : OperationStatus)
    (eventType : OperationEventType) (payloadHash : String) (processId : Option Nat) :
    (db.writeStatus operationId status eventType payloadHash processId).payment.operations.map
      Operation.identity = db.payment.operations.map Operation.identity := by
  show (Table.update _ _ db.payment.operations).map Operation.identity = _
  rw [Table.map_update]
  exact fun _ => rfl

theorem Db.appends_writeStatus (operationId : Nat) (status : OperationStatus)
    (eventType : OperationEventType) (payloadHash : String) (processId : Option Nat) :
    db.Appends (db.writeStatus operationId status eventType payloadHash processId) where
  operations := ⟨[], by rw [Db.identities_writeStatus, List.append_nil]⟩
  events := List.prefix_append _ _

theorem OutsideMove.appends (move : OutsideMove db later) : db.Appends later := by
  cases move with
  | requested =>
      constructor
      · show _ <+: (db.payment.operations ++ [_]).map Operation.identity
        rw [List.map_append]
        exact List.prefix_append _ _
      · exact List.prefix_append _ _
  | submitted => exact Db.appends_writeStatus _ _ _ _ _
  | _ => exact .of_eq rfl rfl

theorem CloseMove.appends {target : Target} {operation : Operation}
    (move : CloseMove target operation db later) : db.Appends later := by
  cases move
  exact Db.appends_writeStatus _ _ _ _ _

theorem SystemMoves.appends (moves : SystemMoves db later) (steady : db.Steady) :
    db.Appends later :=
  moves.invariant db.Appends
    (fun _ _ appends move => appends.trans (.of_eq move.operations_eq.1 move.operations_eq.2))
    (fun _ _ appends move => appends.trans move.appends)
    (fun _ _ appends move => appends.trans move.appends) steady (.of_eq rfl rfl)

/-! One request of a client gives one operation. -/

theorem Operation.requestKeys_identity (operations : List Operation) :
    operations.map Operation.requestKey = (operations.map Operation.identity).map
      fun identity => (identity.principal, identity.requestId) := by
  simp [Function.comp_def, Operation.requestKey, Operation.identity]

theorem OutsideMove.requestKeys (move : OutsideMove db later)
    (unique : (db.payment.operations.map Operation.requestKey).Nodup) :
    (later.payment.operations.map Operation.requestKey).Nodup := by
  cases move with
  | @requested requestId principal currency operationKind amount _ named inRange absent =>
      show ((db.payment.operations ++ [_]).map Operation.requestKey).Nodup
      rw [List.map_append, List.nodup_append]
      refine ⟨unique, List.nodup_singleton _, ?_⟩
      intro key inside other single same
      obtain ⟨row, member, rfl⟩ := List.mem_map.mp inside
      rw [List.map_singleton, List.mem_singleton] at single
      have differs := List.any_eq_false.mp absent row member
      rw [single] at same
      simp only [Operation.requestKey, Prod.mk.injEq] at same
      exact differs (by simpa using same)
  | submitted =>
      rw [Operation.requestKeys_identity, Db.identities_writeStatus,
        ← Operation.requestKeys_identity]
      exact unique
  | _ => exact unique

theorem CloseMove.requestKeys {target : Target} {operation : Operation}
    (move : CloseMove target operation db later) :
    later.payment.operations.map Operation.requestKey =
      db.payment.operations.map Operation.requestKey := by
  cases move
  rw [Operation.requestKeys_identity, Db.identities_writeStatus, ← Operation.requestKeys_identity]

end Moves

section Runs

variable {config : Config} {clock : Nat → Time} {digest : String → String}

theorem reached_requestKeys (calls : List Call) :
    ((reached config clock digest calls).db.payment.operations.map Operation.requestKey).Nodup := by
  refine reached_invariant
    (fun db => (db.payment.operations.map Operation.requestKey).Nodup) ?_ ?_ ?_ ?_ calls
  · intro processId before after _ _ unique move
    rw [move.operations_eq.1]
    exact unique
  · intro before after _ _ unique move
    exact move.requestKeys unique
  · intro target operation before after _ _ unique move
    rw [move.requestKeys]
    exact unique
  · exact List.nodup_nil

structure Db.Ordered (db : Db) : Prop where
  requestKeys : (db.payment.operations.map Operation.requestKey).Nodup
  pinned : ∀ operation ∈ db.payment.operations, db.Pinned operation
  apart : ∀ left ∈ db.payment.operations, ∀ right ∈ db.payment.operations,
    left.processId = right.processId → left.processId ≠ none → left = right

theorem Db.Pins.apart {db : Db} (pins : db.Pins) (steady : db.Steady) {left right : Operation}
    (leftMember : left ∈ db.payment.operations) (rightMember : right ∈ db.payment.operations)
    (same : left.processId = right.processId) (some_ : left.processId ≠ none) : left = right := by
  obtain ⟨processId, pin⟩ := Option.ne_none_iff_exists'.mp some_
  have leftPinned := pins.operations left leftMember
  have rightPinned := pins.operations right rightMember
  simp only [Db.Pinned, pin] at leftPinned
  simp only [Db.Pinned, ← same, pin] at rightPinned
  obtain ⟨_, _, process, member, id, started⟩ := leftPinned
  obtain ⟨_, _, other, otherMember, otherId, otherStarted⟩ := rightPinned
  obtain rfl := Table.key_unique steady.calm.sound.rows.processIds member otherMember
    (id.trans otherId.symm)
  have ids : left.id = right.id := uuidText_injective (started.key.symm.trans otherStarted.key)
  exact Table.key_unique steady.ledger.operationIds leftMember rightMember ids

/-- No call changes what identifies an operation or takes back one of its events, a client's
request gives one operation, and an operation goes with its own process from its one submission. -/
theorem operations_ordered (config : Config) (clock : Nat → Time) (digest : String → String)
    (calls more : List Call) :
    (reached config clock digest calls).db.Ordered ∧
      (reached config clock digest calls).db.Appends
        (reached config clock digest (calls ++ more)).db := by
  have pins := @reached_pins config clock digest calls
  have steady := @reached_steady config clock digest calls
  refine ⟨⟨reached_requestKeys calls, pins.operations, ?_⟩,
    (reached_moves calls more).appends steady⟩
  intro left leftMember right rightMember same some_
  exact pins.apart steady leftMember rightMember same some_

end Runs

/-! The events of an operation as the inputs of a machine over its status. -/

/-- Before its first event an operation has no status. A terminal status can follow the other. -/
def statusMachine : Machine (Option OperationStatus) OperationEventType where
  start := none
  next
    | none, .created => some (some .created)
    | some .created, .submitted => some (some .processing)
    | some .processing, .completed | some .rejected, .completed => some (some .completed)
    | some .processing, .rejected | some .completed, .rejected => some (some .rejected)
    | _, _ => none

def Db.eventTypes (db : Db) (operationId : Nat) : List OperationEventType :=
  (db.payment.operationEvents.filter fun row => row.operationId = operationId).map
    OperationEvent.eventType

def Db.Tells (tells : OperationStatus → List OperationEventType → Prop) (db : Db) : Prop :=
  ∀ operation ∈ db.payment.operations, tells operation.status (db.eventTypes operation.id)

section Tells

variable {tells : OperationStatus → List OperationEventType → Prop} {db later : Db}

theorem Db.eventTypes_append {operationId other : Nat} {eventType : OperationEventType}
    {payloadHash : String} {occurredAt : Time}
    (events : later.payment.operationEvents =
      db.payment.operationEvents ++ [⟨other, eventType, payloadHash, occurredAt⟩]) :
    later.eventTypes operationId = db.eventTypes operationId ++
      if other = operationId then [eventType] else [] := by
  rw [Db.eventTypes, events, List.filter_append, List.map_append]
  by_cases same : other = operationId <;> simp [Db.eventTypes, same]

theorem Db.Tells.of_eq (told : db.Tells tells)
    (operations : later.payment.operations = db.payment.operations)
    (events : later.payment.operationEvents = db.payment.operationEvents) : later.Tells tells := by
  intro operation member
  rw [Db.eventTypes, events]
  exact told operation (operations ▸ member)

theorem Db.Tells.requested (told : db.Tells tells) (first : tells .created [.created])
    (pins : db.Pins) (ledger : db.Ledger) (requestId principal : String)
    (operationKind : OperationKind) (amount : Int) (currency payloadHash : String) :
    ((db.insertOperation requestId principal operationKind amount currency).insertOperationEvent
      db.nextId .created payloadHash).Tells tells := by
  intro operation member
  rw [@Db.eventTypes_append db _ _ _ .created _ _ rfl]
  rcases List.mem_append.mp member with old | new
  · have bound := ledger.operationBound operation old
    rw [if_neg (by omega), List.append_nil]
    exact told operation old
  · rw [List.mem_singleton.mp new, if_pos rfl]
    have nothing : db.eventTypes db.nextId = [] := by
      rw [Db.eventTypes, List.map_eq_nil_iff, List.filter_eq_nil_iff]
      intro event inside same
      have bound := pins.events event inside
      simp only [decide_eq_true_eq] at same
      omega
    rw [nothing]
    exact first

theorem Db.Tells.writeStatus (told : db.Tells tells) (ledger : db.Ledger) {operation : Operation}
    {status : OperationStatus} {eventType : OperationEventType} {payloadHash : String}
    {processId : Option Nat}
    (member : operation ∈ db.payment.operations)
    (next : ∀ types, tells operation.status types → tells status (types ++ [eventType])) :
    (db.writeStatus operation.id status eventType payloadHash processId).Tells tells := by
  intro row rowMember
  obtain ⟨old, oldMember, rfl⟩ := Table.mem_update.mp rowMember
  rw [@Db.eventTypes_append db _ _ _ eventType _ _ rfl]
  by_cases hit : old.id = operation.id
  · obtain rfl := Table.key_unique ledger.operationIds oldMember member hit
    simp only [decide_true, if_true]
    exact next _ (told old oldMember)
  · simp only [hit, decide_false, Bool.false_eq_true, if_false]
    rw [if_neg (Ne.symm hit), List.append_nil]
    exact told old oldMember

theorem OutsideMove.told (move : OutsideMove db later) (told : db.Tells tells) (pins : db.Pins)
    (ledger : db.Ledger) (first : tells .created [.created])
    (second : ∀ types, tells .created types → tells .processing (types ++ [.submitted])) :
    later.Tells tells := by
  cases move with
  | requested => exact told.requested first pins ledger _ _ _ _ _ _
  | submitted processId payloadHash member created =>
      exact told.writeStatus ledger member (by rw [created]; exact second)
  | _ => exact told.of_eq rfl rfl

end Tells

def replays (status : OperationStatus) (types : List OperationEventType) : Prop :=
  statusMachine.run types = some (some status)

section Replays

variable {db later : Db}

theorem replays_next {status next : OperationStatus} {eventType : OperationEventType}
    (leads : statusMachine.next (some status) eventType = some (some next))
    (types : List OperationEventType) (told : replays status types) :
    replays next (types ++ [eventType]) := by
  rw [replays, Machine.run_append, told, Option.bind_some, leads]

theorem CloseMove.replays {target : Target} {operation : Operation}
    (move : CloseMove target operation db later) (told : db.Tells replays) (pins : db.Pins)
    (ledger : db.Ledger) : later.Tells replays := by
  cases move with
  | @closed status eventType payloadHash member closes changes =>
      refine told.writeStatus ledger member (replays_next ?_)
      -- a created operation is not pinned, and nothing closes it
      have pin := closes.pinned pins ledger member
      obtain ⟨processId, some_⟩ := Option.ne_none_iff_exists'.mp pin
      have pinned := pins.operations operation member
      simp only [Db.Pinned, some_] at pinned
      have submitted := pinned.1
      cases closes <;> cases before : operation.status <;>
        first | rfl | exact absurd before submitted | exact absurd before changes

end Replays

/-! The times of the events. -/

section Times

variable {db later : Db}

theorem EngineMove.clock_eq {processId : Nat} (move : EngineMove processId db later) :
    later.clock = db.clock := by
  cases move with
  | started | signalled | finished | decided => exact (Db.placeStep_clock _ _ _).trans rfl
  | _ => rfl

theorem EngineMove.ticks_le {processId : Nat} (move : EngineMove processId db later) :
    db.ticks ≤ later.ticks := by
  cases move with
  | ticked _ count => exact Nat.le_add_right _ count
  | started | decided | signalled | finished =>
      exact Db.ticks_le_placeStep (by simp [Db.consumeSignal, Db.completeJob, Db.completeManual])
  | stored | leased | retried => simp [Db.leaseJob, Db.failAttempt, Db.scheduleRetry]
  | applied => exact Nat.le_add_right _ 2
  | swept => exact Nat.le_add_right _ _
  | disabled | died => exact Nat.le_refl _

theorem OutsideMove.clock_eq (move : OutsideMove db later) : later.clock = db.clock := by
  cases move <;> rfl

theorem OutsideMove.ticks_le (move : OutsideMove db later) : db.ticks ≤ later.ticks := by
  cases move with
  | ticked count => exact Nat.le_add_right _ count
  | requested | submitted => exact Nat.le_succ _
  | prepared | requeued | received => exact Nat.le_add_right _ 2
  | _ => exact Nat.le_refl _

/-- The readings of the clock in the log were taken one after the other. -/
def Db.Dated (db : Db) : Prop :=
  ∃ readings : List Nat, readings.Pairwise (· < ·) ∧ (∀ reading ∈ readings, reading < db.ticks) ∧
    db.payment.operationEvents.map OperationEvent.occurredAt = readings.map db.clock

theorem Db.Dated.of_eq (dated : db.Dated) (clock : later.clock = db.clock)
    (ticks : db.ticks ≤ later.ticks)
    (events : later.payment.operationEvents = db.payment.operationEvents) : later.Dated := by
  obtain ⟨readings, ordered, bound, times⟩ := dated
  refine ⟨readings, ordered, fun reading member => ?_, by rw [events, clock, times]⟩
  exact Nat.lt_of_lt_of_le (bound reading member) ticks

theorem Db.Dated.insertOperationEvent {operationId : Nat} {eventType : OperationEventType}
    {payloadHash : String} (dated : db.Dated) :
    (db.insertOperationEvent operationId eventType payloadHash).Dated := by
  obtain ⟨readings, ordered, bound, times⟩ := dated
  refine ⟨readings ++ [db.ticks], ?_, ?_, ?_⟩
  · refine List.pairwise_append.mpr ⟨ordered, List.pairwise_singleton _ _, ?_⟩
    intro reading member last single
    rw [List.mem_singleton.mp single]
    exact bound reading member
  · intro reading member
    rcases List.mem_append.mp member with old | new
    · exact Nat.lt_succ_of_lt (bound reading old)
    · rw [List.mem_singleton.mp new]
      exact Nat.lt_succ_self _
  · simp [times, Db.now]

theorem OutsideMove.dated (move : OutsideMove db later) (dated : db.Dated) : later.Dated := by
  have apart := fun events => @Db.Dated.of_eq _ later dated move.clock_eq move.ticks_le events
  cases move with
  | requested =>
      exact Db.Dated.insertOperationEvent (@Db.Dated.of_eq _
        (db.insertOperation _ _ _ _ _) dated rfl (Nat.le_refl _) rfl)
  | submitted =>
      exact Db.Dated.insertOperationEvent (@Db.Dated.of_eq _
        (db.updateOperation _ _) dated rfl (Nat.le_refl _) rfl)
  | _ => exact apart rfl

theorem CloseMove.dated {target : Target} {operation : Operation}
    (move : CloseMove target operation db later) (dated : db.Dated) : later.Dated := by
  cases move with
  | closed =>
      exact Db.Dated.insertOperationEvent (@Db.Dated.of_eq _
        (db.updateOperation _ _) dated rfl (Nat.le_refl _) rfl)

theorem reached_dated (config : Config) (clock : Nat → Time) (digest : String → String)
    (calls : List Call) : (reached config clock digest calls).db.Dated := by
  refine reached_invariant Db.Dated ?_ ?_ ?_ ⟨[], .nil, by simp, rfl⟩ calls
  · exact fun _ _ dated move => dated.of_eq move.clock_eq move.ticks_le move.operations_eq.2
  · exact fun _ _ dated move => move.dated dated
  · exact fun _ _ dated move => move.dated dated

theorem reached_clock (config : Config) (clock : Nat → Time) (digest : String → String)
    (calls : List Call) : (reached config clock digest calls).db.clock = clock := by
  refine reached_invariant (fun db => db.clock = clock) ?_ ?_ ?_ rfl calls
  · exact fun _ _ same move => move.clock_eq.trans same
  · exact fun _ _ same move => move.clock_eq.trans same
  · intro target operation before after _ _ same move
    cases move
    exact same

end Times

section Runs

variable {config : Config} {clock : Nat → Time} {digest : String → String}

theorem reached_replays (calls : List Call) :
    (reached config clock digest calls).db.Tells replays := by
  refine (reached_invariant (fun db => db.Pins ∧ db.Tells replays) ?_ ?_ ?_ ?_ calls).2
  · rintro processId before after sound ledger ⟨pins, told⟩ move
    exact ⟨move.pins sound pins, told.of_eq move.operations_eq.1 move.operations_eq.2⟩
  · rintro before after sound ledger ⟨pins, told⟩ move
    exact ⟨move.pins sound ledger pins, move.told told pins ledger rfl (replays_next rfl)⟩
  · rintro target operation before after _ ledger ⟨pins, told⟩ move
    exact ⟨move.pins ledger pins, move.replays told pins ledger⟩
  · exact ⟨reached_pins [], by rintro operation ⟨⟩⟩

theorem withOperation_found {db : Db} {payload : Json} {operation : Operation}
    (found : db.operationOf? payload = some operation)
    (body : Operation → Except SqlError (Db × Envelope)) :
    withOperation db payload body = body operation := by
  obtain ⟨content, named, cast⟩ := Option.bind_eq_some_iff.mp found
  obtain ⟨id, parsed, inside⟩ := Option.bind_eq_some_iff.mp cast
  simp only [withOperation, named, parsed, inside]

theorem withOperation_absent {db : Db} {payload : Json}
    (absent : db.operationOf? payload = none) : ∃ code message,
      ∀ body, withOperation db payload body = .ok (db, .error code message) := by
  cases named : payload.text? "operationId" with
  | none =>
      refine ⟨"operation.not_found", "operation not found", fun body => ?_⟩
      simp only [withOperation, named]
  | some content =>
      cases parsed : castUuid content with
      | none =>
          refine ⟨"payload.invalid", "invalid operationId", fun body => ?_⟩
          simp only [withOperation, named, parsed]
      | some id =>
          simp only [Db.operationOf?, named, parsed, Option.bind_some] at absent
          refine ⟨"operation.not_found", "operation not found", fun body => ?_⟩
          simp only [withOperation, named, parsed, absent]

/-- Readings that only grow stand in the log in its order. -/
theorem Db.Dated.ascending {db : Db} (dated : db.Dated) (forward : StrictMono db.clock) :
    db.payment.operationEvents.Pairwise fun left right => left.occurredAt < right.occurredAt := by
  obtain ⟨readings, ordered, _, times⟩ := dated
  rw [← List.pairwise_map (f := OperationEvent.occurredAt), times, List.pairwise_map]
  exact ordered.imp fun earlier => forward earlier

/-- Whoever asks for an operation and for its events is told of one history: the events replay to
the status in the order they were written in, which is the order of the list unless the clock
stands still or goes back. -/
theorem events_replay_to_status (config : Config) (clock : Nat → Time) (digest : String → String)
    (calls : List Call) (payload : Json) :
    let db := (reached config clock digest calls).db
    match db.operationOf? payload with
    | none => ∃ code message, getV1 db payload = .ok (db, .error code message) ∧
        operationEventsV1 db payload = .ok (db, .error code message)
    | some operation => ∃ written listed status,
        getV1 db payload = .ok (db, .ok "FOUND" (operationResult operation [
          ("requestId", .text operation.requestId),
          ("operationKind", .text operation.operationKind.text),
          ("amount", .text (numericText operation.amount)),
          ("currency", .text operation.currency),
          ("status", .text (OperationStatus.text status))])) ∧
        operationEventsV1 db payload = .ok (db, .ok "FOUND" (operationResult operation [
          ("events", .array (listed.map OperationEvent.listed))])) ∧
        written = db.payment.operationEvents.filter (fun row => row.operationId = operation.id) ∧
        statusMachine.run (written.map OperationEvent.eventType) = some (some status) ∧
        List.Perm listed written ∧
        listed.Pairwise (fun left right => left.occurredAt ≤ right.occurredAt) ∧
        (StrictMono clock → listed = written) := by
  intro db
  split
  · rename_i absent
    obtain ⟨code, message, told⟩ := withOperation_absent absent
    exact ⟨code, message, told _, told _⟩
  · rename_i operation found
    let later : OperationEvent → OperationEvent → Prop :=
      fun left right => left.occurredAt ≤ right.occurredAt
    have total : Std.Total later := ⟨fun left right => Int.le_total _ _⟩
    have trans : IsTrans OperationEvent later := ⟨fun _ _ _ => Int.le_trans⟩
    refine ⟨_, _, operation.status, ?_, ?_, rfl, ?_, List.perm_insertionSort later _,
      List.pairwise_insertionSort later _, fun forward => ?_⟩
    · rw [getV1, withOperation_found found]
    · rw [operationEventsV1, withOperation_found found]
    · obtain ⟨content, _, cast⟩ := Option.bind_eq_some_iff.mp found
      obtain ⟨id, _, inside⟩ := Option.bind_eq_some_iff.mp cast
      exact reached_replays calls operation (Table.lookup_mem inside).1
    · have ascending := (reached_dated config clock digest calls).ascending
        (by rw [reached_clock]; exact forward)
      refine List.Pairwise.insertionSort_eq ((ascending.filter _).imp fun earlier => ?_)
      exact Int.le_of_lt earlier

end Runs

end PaymentWorkflow
