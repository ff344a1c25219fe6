import PaymentWorkflow.SystemRuns

/-!
External requests, their outbox rows and their receipts: how far each has come fits how far
the others have, whatever order dispatchers and callbacks arrive in.
-/

namespace PaymentWorkflow

inductive Stage : ExternalState → OutboxState → Bool → Prop
  | created (state : OutboxState) (undelivered : state ≠ .delivered)
      (unconfirmed : state ≠ .confirmed) : Stage .created state false
  | sent : Stage .sent .delivered false
  | confirmed : Stage .confirmed .confirmed true

/-- A row that is still to be delivered stays so in any other open state. -/
theorem Stage.reopen {external : ExternalState} {state next : OutboxState} {answered : Bool}
    (stage : Stage external state answered)
    (before : state ≠ .delivered ∧ state ≠ .confirmed)
    (after : next ≠ .delivered ∧ next ≠ .confirmed) : Stage external next answered := by
  cases stage with
  | created => exact .created next after.1 after.2
  | sent => exact absurd rfl before.1
  | confirmed => exact absurd rfl before.2

inductive Advances : ExternalState → ExternalState → Prop
  | stays (state : ExternalState) : Advances state state
  | sent : Advances .created .sent
  | confirmed : Advances .sent .confirmed
  | overtaken : Advances .created .confirmed

theorem Advances.trans {first second third : ExternalState} (left : Advances first second)
    (right : Advances second third) : Advances first third := by
  cases left with
  | stays => exact right
  | sent =>
      cases right with
      | stays => exact .sent
      | confirmed => exact .overtaken
  | confirmed => cases right with | stays => exact .confirmed
  | overtaken => cases right with | stays => exact .overtaken

namespace Delivery

def answered (delivery : Delivery) (externalRequestId : String) : Bool :=
  delivery.receipts.any fun receipt => receipt.externalRequestId = externalRequestId

/-- Outbox rows are inserted with their requests, so the two tables run in parallel. -/
structure Lattice (delivery : Delivery) : Prop where
  externalIds : (delivery.externalRequests.map ExternalRequest.id).Nodup
  operationIds : (delivery.externalRequests.map ExternalRequest.operationId).Nodup
  paired : delivery.outbox.map OutboxRow.externalRequestId =
    delivery.externalRequests.map ExternalRequest.id
  receipts : ∀ receipt ∈ delivery.receipts, ∃ external ∈ delivery.externalRequests,
    external.id = receipt.externalRequestId
  stage : ∀ external ∈ delivery.externalRequests, ∀ row ∈ delivery.outbox,
    row.externalRequestId = external.id →
      Stage external.state row.state (delivery.answered external.id)

structure Moved (delivery later : Delivery) : Prop where
  external : ∀ external ∈ delivery.externalRequests, ∃ after ∈ later.externalRequests,
    after.id = external.id ∧ after.operationId = external.operationId ∧
      Advances external.state after.state
  outbox : ∀ row ∈ delivery.outbox, ∃ after ∈ later.outbox, after.id = row.id ∧
    after.externalRequestId = row.externalRequestId ∧
      (row.state = .confirmed → after.state = .confirmed)

theorem Moved.refl (delivery : Delivery) : Moved delivery delivery where
  external := fun external member => ⟨external, member, rfl, rfl, .stays _⟩
  outbox := fun row member => ⟨row, member, rfl, rfl, id⟩

theorem Moved.trans {first second third : Delivery} (left : Moved first second)
    (right : Moved second third) : Moved first third where
  external := by
    intro external member
    obtain ⟨between, betweenMember, sameId, sameOperation, advances⟩ :=
      left.external external member
    obtain ⟨after, afterMember, sameId', sameOperation', advances'⟩ :=
      right.external between betweenMember
    exact ⟨after, afterMember, sameId'.trans sameId, sameOperation'.trans sameOperation,
      advances.trans advances'⟩
  outbox := by
    intro row member
    obtain ⟨between, betweenMember, sameId, sameKey, kept⟩ := left.outbox row member
    obtain ⟨after, afterMember, sameId', sameKey', kept'⟩ := right.outbox between betweenMember
    exact ⟨after, afterMember, sameId'.trans sameId, sameKey'.trans sameKey,
      fun confirmed => kept' (kept confirmed)⟩

section Changes

variable {delivery later : Delivery} {change : ExternalRequest → ExternalRequest}
  {queue : OutboxRow → OutboxRow}

/-- Rows changed in place, with a new stage for every request and its outbox row. -/
theorem Lattice.changed (lattice : delivery.Lattice)
    (externals : later.externalRequests = delivery.externalRequests.map change)
    (outbox : later.outbox = delivery.outbox.map queue)
    (sameId : ∀ external, (change external).id = external.id)
    (sameOperation : ∀ external, (change external).operationId = external.operationId)
    (sameKey : ∀ row, (queue row).externalRequestId = row.externalRequestId)
    (receipts : ∀ receipt ∈ later.receipts, ∃ external ∈ delivery.externalRequests,
      external.id = receipt.externalRequestId)
    (stage : ∀ external ∈ delivery.externalRequests, ∀ row ∈ delivery.outbox,
      row.externalRequestId = external.id →
        Stage external.state row.state (delivery.answered external.id) →
          Stage (change external).state (queue row).state (later.answered external.id)) :
    later.Lattice where
  externalIds := by
    rw [externals, List.map_map]
    simpa only [Function.comp_def, sameId] using lattice.externalIds
  operationIds := by
    rw [externals, List.map_map]
    simpa only [Function.comp_def, sameOperation] using lattice.operationIds
  paired := by
    rw [externals, outbox, List.map_map, List.map_map]
    simpa only [Function.comp_def, sameId, sameKey] using lattice.paired
  receipts := by
    intro receipt member
    obtain ⟨external, externalMember, same⟩ := receipts receipt member
    refine ⟨change external, ?_, (sameId external).trans same⟩
    rw [externals]
    exact List.mem_map_of_mem externalMember
  stage := by
    intro external member row rowMember same
    rw [externals] at member
    rw [outbox] at rowMember
    obtain ⟨before, beforeMember, rfl⟩ := List.mem_map.mp member
    obtain ⟨rowBefore, rowBeforeMember, rfl⟩ := List.mem_map.mp rowMember
    rw [sameKey, sameId] at same
    rw [sameId]
    exact stage before beforeMember rowBefore rowBeforeMember same
      (lattice.stage before beforeMember rowBefore rowBeforeMember same)

theorem Moved.changed (externals : later.externalRequests = delivery.externalRequests.map change)
    (outbox : later.outbox = delivery.outbox.map queue)
    (sameId : ∀ external, (change external).id = external.id)
    (sameOperation : ∀ external, (change external).operationId = external.operationId)
    (sameRow : ∀ row, (queue row).id = row.id ∧
      (queue row).externalRequestId = row.externalRequestId)
    (advances : ∀ external ∈ delivery.externalRequests,
      Advances external.state (change external).state)
    (kept : ∀ row ∈ delivery.outbox, row.state = .confirmed → (queue row).state = .confirmed) :
    Moved delivery later where
  external := by
    intro external member
    refine ⟨change external, ?_, sameId external, sameOperation external, advances external member⟩
    rw [externals]
    exact List.mem_map_of_mem member
  outbox := by
    intro row member
    refine ⟨queue row, ?_, (sameRow row).1, (sameRow row).2, kept row member⟩
    rw [outbox]
    exact List.mem_map_of_mem member

theorem answered_congr (same : later.receipts.map Receipt.externalRequestId =
      delivery.receipts.map Receipt.externalRequestId) (externalRequestId : String) :
    later.answered externalRequestId = delivery.answered externalRequestId := by
  have whole : ∀ table : List Receipt,
      (table.any fun receipt => decide (receipt.externalRequestId = externalRequestId)) =
        (table.map Receipt.externalRequestId).any fun key => decide (key = externalRequestId) := by
    intro table
    rw [List.any_map]
    rfl
  rw [answered, answered, whole, whole, same]

theorem Lattice.receipts_congr (lattice : delivery.Lattice)
    (same : later.receipts.map Receipt.externalRequestId =
      delivery.receipts.map Receipt.externalRequestId) :
    ∀ receipt ∈ later.receipts, ∃ external ∈ delivery.externalRequests,
      external.id = receipt.externalRequestId := by
  intro receipt member
  have key := List.mem_map_of_mem (f := Receipt.externalRequestId) member
  rw [same] at key
  obtain ⟨old, oldMember, equal⟩ := List.mem_map.mp key
  obtain ⟨external, externalMember, answers⟩ := lattice.receipts old oldMember
  exact ⟨external, externalMember, answers.trans equal⟩

theorem Lattice.open_rows (lattice : delivery.Lattice) {matched : OutboxRow → Bool}
    (before : ∀ row ∈ delivery.outbox, matched row = true →
      row.state ≠ .delivered ∧ row.state ≠ .confirmed)
    (after : ∀ row, (queue row).state ≠ .delivered ∧ (queue row).state ≠ .confirmed)
    (sameRow : ∀ row, (queue row).id = row.id ∧
      (queue row).externalRequestId = row.externalRequestId) :
    Lattice { delivery with outbox := Table.update matched queue delivery.outbox } ∧
      Moved delivery { delivery with outbox := Table.update matched queue delivery.outbox } := by
  have row : ∀ row, (if matched row = true then queue row else row).id = row.id ∧
      (if matched row = true then queue row else row).externalRequestId =
        row.externalRequestId := by
    intro row
    split
    · exact sameRow row
    · exact ⟨rfl, rfl⟩
  constructor
  · refine lattice.changed (List.map_id _).symm rfl (fun _ => rfl) (fun _ => rfl)
      (fun other => (row other).2) lattice.receipts ?_
    intro external _ other otherMember _ stage
    by_cases hit : matched other = true
    · simp only [hit, if_true]
      exact stage.reopen (before other otherMember hit) (after other)
    · simp only [hit]
      exact stage
  · refine Moved.changed (List.map_id _).symm rfl (fun _ => rfl) (fun _ => rfl) row
      (fun external _ => .stays _) ?_
    intro other otherMember confirmed
    by_cases hit : matched other = true
    · exact absurd confirmed (before other otherMember hit).2
    · simpa [hit] using confirmed

end Changes

end Delivery

/-! What the moves do to the delivery tables. -/

/-- The only receipts column the engine writes is the time a message was applied. -/
theorem EngineMove.receipts_eq {processId : Nat} {db later : Db}
    (move : EngineMove processId db later) :
    later.delivery.receipts.map Receipt.externalRequestId =
      db.delivery.receipts.map Receipt.externalRequestId := by
  cases move with
  | started | signalled | finished | decided => rw [Db.placeStep_delivery]; rfl
  | applied =>
      show (Table.update _ _ _).map _ = _
      rw [Table.map_update]
      exact fun _ => rfl
  | _ => rfl

theorem EngineMove.delivery {processId : Nat} {db later : Db} (move : EngineMove processId db later)
    (lattice : db.delivery.Lattice) :
    later.delivery.Lattice ∧ Delivery.Moved db.delivery later.delivery := by
  have externals : later.delivery.externalRequests = db.delivery.externalRequests.map id := by
    rw [move.outbox_eq.1, List.map_id]
  have outbox : later.delivery.outbox = db.delivery.outbox.map id := by
    rw [move.outbox_eq.2, List.map_id]
  constructor
  · refine lattice.changed externals outbox (fun _ => rfl) (fun _ => rfl) (fun _ => rfl)
      (lattice.receipts_congr move.receipts_eq) ?_
    intro external _ row _ _ stage
    rw [Delivery.answered_congr move.receipts_eq]
    exact stage
  · exact .changed externals outbox (fun _ => rfl) (fun _ => rfl) (fun _ => ⟨rfl, rfl⟩)
      (fun external _ => .stays _) fun _ _ confirmed => confirmed

section Outbox

variable {db : Db}

/-- The fence of a report matches no row but the one it is held by. -/
theorem Db.Ledger.held_eq (ledger : db.Ledger) {row other : OutboxRow} {owner : Option String}
    {leaseVersion : Option Int} (member : row ∈ db.delivery.outbox)
    (otherMember : other ∈ db.delivery.outbox)
    (held : other.heldBy row.id owner leaseVersion = true) :
    other = row :=
  Table.key_unique ledger.outboxIds otherMember member (heldBy_self held)

theorem held_state {row : OutboxRow} {outboxId : Nat} {owner : Option String}
    {leaseVersion : Option Int} (held : row.heldBy outboxId owner leaseVersion = true) :
    row.state = .leased := by
  simp only [OutboxRow.heldBy, decide_eq_true_eq] at held
  exact held.2.2.2.2

theorem outboxDelivered_delivery (ledger : db.Ledger) (lattice : db.delivery.Lattice)
    {row : OutboxRow} {owner : Option String} {leaseVersion : Option Int}
    (member : row ∈ db.delivery.outbox) (held : row.heldBy row.id owner leaseVersion = true)
    {later : Db} (written : later =
      (db.updateOutbox (fun other => other.heldBy row.id owner leaseVersion) fun other => { other with
        state := .delivered, leaseOwner := none, leaseUntil := none }).updateExternal
          (fun external => external.id = row.externalRequestId ∧ external.state = .created)
          fun external => { external with state := .sent }) :
    later.delivery.Lattice ∧ Delivery.Moved db.delivery later.delivery := by
  subst written
  have outboxKeys : (db.delivery.outbox.map OutboxRow.externalRequestId).Nodup :=
    lattice.paired ▸ lattice.externalIds
  constructor
  · refine lattice.changed rfl rfl ?_ ?_ ?_ lattice.receipts ?_
    · intro external
      dsimp only
      split <;> rfl
    · intro external
      dsimp only
      split <;> rfl
    · intro other
      dsimp only
      split <;> rfl
    · intro external _ other otherMember same stage
      by_cases hit : other.heldBy row.id owner leaseVersion = true
      · obtain rfl := ledger.held_eq member otherMember hit
        rw [held_state held] at stage
        cases stated : external.state with
        | created =>
            rw [stated] at stage
            cases answered : db.delivery.answered external.id with
            | false =>
                simp only [hit, if_true, same, stated, and_self, decide_true]
                show Stage .sent .delivered (db.delivery.answered external.id)
                rw [answered]
                exact .sent
            | true => rw [answered] at stage; cases stage
        | sent => rw [stated] at stage; cases stage
        | confirmed => rw [stated] at stage; cases stage
      · have untouched : external.id ≠ row.externalRequestId := by
          intro equal
          have sameRow := Table.key_unique outboxKeys otherMember member (same.trans equal)
          exact hit (sameRow ▸ held)
        simp only [hit, untouched, false_and, decide_false]
        exact stage
  · refine .changed rfl rfl ?_ ?_ ?_ ?_ ?_
    · intro external
      dsimp only
      split <;> rfl
    · intro external
      dsimp only
      split <;> rfl
    · intro other
      dsimp only
      split <;> exact ⟨rfl, rfl⟩
    · intro external _
      dsimp only
      split
      · rename_i matched
        simp only [decide_eq_true_eq] at matched
        rw [matched.2]
        exact .sent
      · exact .stays _
    · intro other otherMember confirmed
      by_cases hit : other.heldBy row.id owner leaseVersion = true
      · rw [held_state hit] at confirmed
        simp at confirmed
      · simpa [hit] using confirmed

theorem received_delivery (lattice : db.delivery.Lattice) {external : ExternalRequest}
    {messageId bodyHash : String} {processId : Nat} {outcome : ReceiptOutcome} {body : Json}
    (member : external ∈ db.delivery.externalRequests) {later : Db}
    (written : later = (db.insertReceipt messageId external.id processId outcome bodyHash
      body).confirmDelivery external.id) :
    later.delivery.Lattice ∧ Delivery.Moved db.delivery later.delivery := by
  subst written
  constructor
  · refine lattice.changed rfl rfl ?_ ?_ ?_ ?_ ?_
    · intro request
      dsimp only
      split <;> rfl
    · intro request
      dsimp only
      split <;> rfl
    · intro row
      dsimp only
      split <;> rfl
    · intro receipt receiptMember
      rcases List.mem_append.mp receiptMember with old | new
      · exact lattice.receipts receipt old
      · simp only [List.mem_singleton] at new
        subst new
        exact ⟨external, member, rfl⟩
    · intro request _ row _ same stage
      have answered : ((db.insertReceipt messageId external.id processId outcome bodyHash
          body).confirmDelivery external.id).delivery.answered request.id =
            (db.delivery.answered request.id || decide (external.id = request.id)) := by
        simp [Delivery.answered, Db.confirmDelivery]
      rw [answered]
      by_cases hit : request.id = external.id
      · simp only [hit, same, decide_true, if_true, Bool.or_true, true_and]
        by_cases confirmed : row.state = .confirmed
        · simp only [confirmed, ne_eq, not_true_eq_false, decide_false]
          rw [if_neg (by simp), confirmed]
          exact .confirmed
        · simp only [confirmed, ne_eq, not_false_eq_true, decide_true, if_true]
          exact .confirmed
      · simp only [hit, Ne.symm hit, same, decide_false, Bool.or_false, false_and]
        exact stage
  · refine .changed rfl rfl ?_ ?_ ?_ ?_ ?_
    · intro request
      dsimp only
      split <;> rfl
    · intro request
      dsimp only
      split <;> rfl
    · intro row
      dsimp only
      split <;> exact ⟨rfl, rfl⟩
    · intro request _
      dsimp only
      split
      · cases request.state with
        | created => exact .overtaken
        | sent => exact .confirmed
        | confirmed => exact .stays _
      · exact .stays _
    · intro row _ confirmed
      dsimp only
      split
      · rfl
      · exact confirmed

theorem prepared_delivery (lattice : db.delivery.Lattice) {operation : Operation}
    {correlationId : Nat} (absent : db.externalOf? operation.id = none)
    (fresh : (db.delivery.externalRequests.any fun row => row.id = uuidText db.nextId) = false)
    {later : Db} (written : later = (db.insertExternal operation correlationId).insertOutbox
      (uuidText db.nextId) correlationId) :
    later.delivery.Lattice ∧ Delivery.Moved db.delivery later.delivery := by
  subst written
  have unknown : ∀ external ∈ db.delivery.externalRequests, external.id ≠ uuidText db.nextId := by
    simpa using fresh
  have unused : ∀ external ∈ db.delivery.externalRequests, external.operationId ≠ operation.id :=
    Table.lookup_eq_none.mp absent
  have unqueued : ∀ row ∈ db.delivery.outbox, row.externalRequestId ≠ uuidText db.nextId := by
    intro row member same
    have key := List.mem_map_of_mem (f := OutboxRow.externalRequestId) member
    rw [lattice.paired] at key
    obtain ⟨external, externalMember, equal⟩ := List.mem_map.mp key
    exact unknown external externalMember (equal.trans same)
  have unanswered : db.delivery.answered (uuidText db.nextId) = false := by
    simp only [Delivery.answered, List.any_eq_false, decide_eq_true_eq]
    intro receipt member same
    obtain ⟨external, externalMember, equal⟩ := lattice.receipts receipt member
    exact unknown external externalMember (equal.trans same)
  constructor
  · refine ⟨?_, ?_, ?_, ?_, ?_⟩
    · simp only [Db.insertOutbox_delivery_externalRequests, Db.insertExternal_delivery_externalRequests,
        List.map_append, List.nodup_append]
      refine ⟨lattice.externalIds, by simp, ?_⟩
      simpa using unknown
    · simp only [Db.insertOutbox_delivery_externalRequests, Db.insertExternal_delivery_externalRequests,
        List.map_append, List.nodup_append]
      refine ⟨lattice.operationIds, by simp, ?_⟩
      simpa using unused
    · simp [lattice.paired]
    · intro receipt member
      obtain ⟨external, externalMember, same⟩ := lattice.receipts receipt member
      exact ⟨external, List.mem_append_left _ externalMember, same⟩
    · intro external member row rowMember same
      rcases List.mem_append.mp member with old | new <;>
        rcases List.mem_append.mp rowMember with rowOld | rowNew
      · exact lattice.stage external old row rowOld same
      · simp only [List.mem_singleton] at rowNew
        subst rowNew
        exact absurd same.symm (unknown external old)
      · simp only [List.mem_singleton] at new
        subst new
        exact absurd same (unqueued row rowOld)
      · simp only [List.mem_singleton] at new rowNew
        subst new rowNew
        show Stage .created .pending (db.delivery.answered (uuidText db.nextId))
        rw [unanswered]
        exact .created _ (by simp) (by simp)
  · constructor
    · intro external member
      exact ⟨external, List.mem_append_left _ member, rfl, rfl, .stays _⟩
    · intro row member
      exact ⟨row, List.mem_append_left _ member, rfl, rfl, id⟩

end Outbox

theorem OutsideMove.delivery {db later : Db} (move : OutsideMove db later) (ledger : db.Ledger)
    (lattice : db.delivery.Lattice) :
    later.delivery.Lattice ∧ Delivery.Moved db.delivery later.delivery := by
  cases move with
  | prepared correlationId member pinned absent fresh =>
      exact prepared_delivery lattice absent fresh rfl
  | requeued correlationId member absent =>
      -- every request already has its outbox row
      have key := List.mem_map_of_mem (f := ExternalRequest.id) member
      rw [← lattice.paired] at key
      obtain ⟨row, rowMember, same⟩ := List.mem_map.mp key
      simp only [List.any_eq_false, decide_eq_true_eq] at absent
      exact absurd same (absent row rowMember)
  | outboxLeased owner unique claimable =>
      refine lattice.open_rows ?_ (fun _ => by simp) (fun _ => ⟨rfl, rfl⟩)
      intro row member matched
      simp only [List.any_eq_true, decide_eq_true_eq] at matched
      obtain ⟨claimed, claimedMember, same⟩ := matched
      obtain ⟨claimedRow, claimedState⟩ := claimable claimed claimedMember
      obtain rfl := Table.key_unique ledger.outboxIds claimedRow member same
      rcases claimedState with state | state | state <;> simp [state]
  | outboxDelivered member held => exact outboxDelivered_delivery ledger lattice member held rfl
  | outboxRetried nextAttemptAt member held =>
      refine lattice.open_rows ?_ (fun _ => by simp) (fun _ => ⟨rfl, rfl⟩)
      intro row _ matched
      simp [held_state matched]
  | outboxDied member held =>
      refine lattice.open_rows ?_ (fun _ => by simp) (fun _ => ⟨rfl, rfl⟩)
      intro row _ matched
      simp [held_state matched]
  | received outcome body member => exact received_delivery lattice member rfl
  | _ => exact ⟨lattice, .refl _⟩

/-! The delivery tables in every state of every run. -/

theorem initial_lattice {config : Config} {clock : Nat → Time} {digest : String → String} :
    (Db.initial config clock digest).delivery.Lattice := by
  constructor <;> simp [Db.initial]

theorem reached_lattice (config : Config) (clock : Nat → Time) (digest : String → String)
    (calls : List Call) : (reached config clock digest calls).db.delivery.Lattice :=
  reached_invariant (fun db => db.delivery.Lattice)
    (fun _ _ lattice move => (move.delivery lattice).1)
    (fun _ ledger lattice move => (move.delivery ledger lattice).1)
    (fun _ _ lattice move => move.delivery_eq ▸ lattice) initial_lattice calls

theorem reached_moved (config : Config) (clock : Nat → Time) (digest : String → String)
    (calls more : List Call) :
    Delivery.Moved (reached config clock digest calls).db.delivery
      (reached config clock digest (calls ++ more)).db.delivery := by
  have both := SystemMoves.invariant (fun later => later.delivery.Lattice ∧
      Delivery.Moved (reached config clock digest calls).db.delivery later.delivery)
    (fun _ _ holds move => ⟨(move.delivery holds.1).1, holds.2.trans (move.delivery holds.1).2⟩)
    (fun _ ledger holds move =>
      ⟨(move.delivery ledger holds.1).1, holds.2.trans (move.delivery ledger holds.1).2⟩)
    (fun _ _ holds move => move.delivery_eq ▸ holds)
    (reached_moves calls more) (reached_steady calls)
    ⟨reached_lattice config clock digest calls, .refl _⟩
  exact both.2

namespace Delivery

structure Consistent (delivery : Delivery) : Prop where
  oneRequest : ∀ left ∈ delivery.externalRequests, ∀ right ∈ delivery.externalRequests,
    left.operationId = right.operationId → left = right
  oneOutboxRow : ∀ external ∈ delivery.externalRequests,
    (delivery.outbox.filter fun row => row.externalRequestId = external.id).length = 1
  confirmedTogether : ∀ external ∈ delivery.externalRequests, ∀ row ∈ delivery.outbox,
    row.externalRequestId = external.id →
      (row.state = .confirmed ↔ external.state = .confirmed)
  confirmedByReceipt : ∀ external ∈ delivery.externalRequests,
    (external.state = .confirmed ↔
      ∃ receipt ∈ delivery.receipts, receipt.externalRequestId = external.id)
  deliveredSent : ∀ external ∈ delivery.externalRequests, ∀ row ∈ delivery.outbox,
    row.externalRequestId = external.id → row.state = .delivered → external.state = .sent

theorem Lattice.consistent {delivery : Delivery} (lattice : delivery.Lattice) :
    delivery.Consistent where
  oneRequest := fun _ left _ right same => Table.key_unique lattice.operationIds left right same
  oneOutboxRow := by
    intro external member
    have once : ((delivery.outbox.map OutboxRow.externalRequestId).filter
        fun key => key = external.id).length = 1 := by
      rw [lattice.paired, ← List.countP_eq_length_filter]
      have unique := List.count_eq_one_of_mem lattice.externalIds (List.mem_map_of_mem member)
      rw [← unique, List.count]
      rfl
    rw [List.filter_map, List.length_map] at once
    exact once
  confirmedTogether := by
    intro external member row rowMember same
    have stage := lattice.stage external member row rowMember same
    generalize external.state = state at stage
    generalize row.state = queued at stage
    generalize delivery.answered external.id = answered at stage
    cases stage <;> simp_all
  confirmedByReceipt := by
    intro external member
    have key := List.mem_map_of_mem (f := ExternalRequest.id) member
    rw [← lattice.paired] at key
    obtain ⟨row, rowMember, same⟩ := List.mem_map.mp key
    have stage := lattice.stage external member row rowMember same
    have exact_ : external.state = .confirmed ↔ delivery.answered external.id = true := by
      generalize external.state = state at stage
      generalize row.state = queued at stage
      generalize delivery.answered external.id = answered at stage
      cases stage <;> simp
    rw [exact_]
    simp [answered]
  deliveredSent := by
    intro external member row rowMember same delivered
    have stage := lattice.stage external member row rowMember same
    rw [delivered] at stage
    generalize external.state = state at stage
    generalize delivery.answered external.id = answered at stage
    cases stage with
    | created _ undelivered => exact absurd rfl undelivered
    | sent => rfl

end Delivery

def OutboxRow.leasedTo (row : OutboxRow) (owner : Option String) (leaseVersion : Option Int) :
    Prop :=
  row.state = .leased ∧ row.leaseOwner = owner ∧ leaseVersion = some (row.leaseVersion : Int)

theorem unheld_find {db : Db} {outboxId : Nat} {owner : Option String} {leaseVersion : Option Int}
    (stale : ∀ row ∈ db.delivery.outbox, row.id = outboxId → ¬ row.leasedTo owner leaseVersion) :
    (db.delivery.outbox.find? fun row => row.heldBy outboxId owner leaseVersion) = none := by
  rw [List.find?_eq_none]
  intro row member held
  simp only [OutboxRow.heldBy, decide_eq_true_eq] at held
  obtain ⟨same, _, sameOwner, sameVersion, leased⟩ := held
  exact stale row member same ⟨leased, sameOwner, sameVersion⟩

/-- In every state of every run the delivery tables are consistent, every request and every
confirmation only moves on, and a report whose lease is not current is stale and changes
nothing. -/
theorem delivery_lattice (config : Config) (clock : Nat → Time) (digest : String → String)
    (calls more : List Call) :
    let db := (reached config clock digest calls).db
    db.delivery.Consistent ∧
      Delivery.Moved db.delivery (reached config clock digest (calls ++ more)).db.delivery ∧
      ∀ outboxId owner leaseVersion,
        (∀ row ∈ db.delivery.outbox, row.id = outboxId → ¬ row.leasedTo owner leaseVersion) →
          (∀ providerPaymentId, succeedOutbox db outboxId owner leaseVersion providerPaymentId =
            (db, .stale)) ∧
          ∀ errorCode, failOutbox db outboxId owner leaseVersion errorCode = (db, .stale) := by
  refine ⟨(reached_lattice config clock digest calls).consistent,
    reached_moved config clock digest calls more, ?_⟩
  intro outboxId owner leaseVersion stale
  have missed := unheld_find stale
  constructor
  · intro providerPaymentId
    simp only [succeedOutbox, missed]
  · intro errorCode
    simp only [failOutbox, missed]

end PaymentWorkflow
