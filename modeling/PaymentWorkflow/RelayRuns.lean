import PaymentWorkflow.DispatcherProofs
import PaymentWorkflow.ReceiptStore
import PaymentWorkflow.RelayProofs

/-! However often a callback is relayed, and whatever else is called, one message is kept for it. -/

namespace PaymentWorkflow

open Python (CodePoint Text Value literal)

/-! The operation of an external request is pinned. -/

def Db.Routed (db : Db) : Prop :=
  ∀ external ∈ db.delivery.externalRequests, ∃ processId, db.Owns external.id processId

section Moves

variable {db later : Db}

theorem Db.Routed.kept (routed : db.Routed)
    (moved : Delivery.Moved db.delivery later.delivery) (follows : db.Follows later)
    (same : later.delivery.externalRequests.map ExternalRequest.id =
      db.delivery.externalRequests.map ExternalRequest.id) : later.Routed := by
  intro external member
  have inside := List.mem_map_of_mem (f := ExternalRequest.id) member
  rw [same] at inside
  obtain ⟨old, oldMember, id⟩ := List.mem_map.mp inside
  obtain ⟨processId, owns⟩ := routed old oldMember
  rw [← id]
  exact ⟨processId, owns.kept moved follows⟩

theorem OutsideMove.routed (move : OutsideMove db later) (ledger : db.Ledger)
    (lattice : db.delivery.Lattice) (routed : db.Routed) : later.Routed := by
  have moved := (move.delivery ledger lattice).2
  have follows := move.follows ledger
  cases move with
  | @prepared operation correlationId member pinned absent fresh =>
      intro external inside
      rw [Db.insertOutbox_delivery_externalRequests, Db.insertExternal_delivery_externalRequests]
        at inside
      rcases List.mem_append.mp inside with old | new
      · obtain ⟨processId, owns⟩ := routed external old
        exact ⟨processId, owns.kept moved follows⟩
      · obtain ⟨processId, located⟩ := Option.ne_none_iff_exists'.mp pinned
        rw [List.mem_singleton] at new
        exact ⟨processId, external, inside, rfl, operation, member, new ▸ rfl, located⟩
  | outboxDelivered =>
      refine routed.kept moved follows ?_
      rw [Db.updateExternal_delivery_externalRequests, Table.map_update]
      · rfl
      · exact fun _ => rfl
  | received =>
      refine routed.kept moved follows ?_
      change (Table.update _ _ _).map _ = _
      rw [Table.map_update]
      · rfl
      · exact fun _ => rfl
  | _ => exact routed.kept moved follows rfl

end Moves

theorem reached_routed (config : Config) (clock : Nat → Time) (digest : String → String)
    (calls : List Call) : (reached config clock digest calls).db.Routed := by
  have both : (reached config clock digest calls).db.delivery.Lattice ∧
      (reached config clock digest calls).db.Routed := by
    refine reached_invariant (fun db => db.delivery.Lattice ∧ db.Routed) ?_ ?_ ?_
      ⟨initial_lattice, fun _ member => absurd member List.not_mem_nil⟩ calls
    · intro processId before after _ _ holds move
      have delivered := move.delivery holds.1
      exact ⟨delivered.1, holds.2.kept delivered.2 (.of_eq move.operations_eq.1)
        (by rw [move.outbox_eq.1])⟩
    · intro before after _ ledger holds move
      exact ⟨(move.delivery ledger holds.1).1, move.routed ledger holds.1 holds.2⟩
    · intro target operation before after _ ledger holds move
      have same := move.delivery_eq
      exact ⟨same ▸ holds.1, holds.2.kept (same ▸ .refl _) (move.follows ledger) (by rw [same])⟩
  exact both.2

/-! A message that is not there yet is stored. -/

section Storing

variable {db : Db} {context : Context} {read : Json} {bodyHash externalRequestId messageId : String}

theorem receiptAcceptV1_unseen (ledger : db.Ledger) (lattice : db.delivery.Lattice)
    (filing : db.Filing) (routed : db.Routed) (receivable : Receivable context read bodyHash)
    (named : read.text? "externalRequestId" = some externalRequestId)
    (known : (Table.lookup ExternalRequest.id externalRequestId
      db.delivery.externalRequests).isSome = true)
    (id : read.text? "messageId" = some messageId) (fresh : db.message? (some messageId) = none)
    {outcome : ReceiptOutcome}
    (judged : (read.text? "outcome").bind ReceiptOutcome.ofText? = some outcome) :
    ∃ later, receiptAcceptV1 db context read = .ok (later, .ok "RECEIVED"
        (receiptResult (some messageId) (some externalRequestId) "RECEIVED")) ∧
      ∃ row, later.message? (some messageId) = some row ∧ row.bodyHash = bodyHash ∧
        row.externalRequestId = externalRequestId := by
  obtain ⟨external, found⟩ := Option.isSome_iff_exists.mp known
  obtain ⟨member, externalId⟩ := Table.lookup_mem found
  obtain ⟨processId, other, otherMember, sameId, operation, operationMember, operationId, pinned⟩ :=
    routed external member
  obtain rfl := Table.key_unique lattice.externalIds otherMember member sameId
  have located := Table.lookup_of_mem ledger.operationIds operationMember
  rw [operationId] at located
  have arrived : checkReceipt db context read = .ok (.arrived {
      messageId, externalRequestId := other.id, processId, bodyHash, outcome := some outcome
      body := receiptBody read }) := by
    rw [checkReceipt_of_receivable receivable (by rw [named]; exact found)]
    simp only [readArrival, id, fresh, located, Option.bind_some, pinned, judged]
  have absent : (db.delivery.receipts.any fun row => row.messageId = messageId) = false := by
    rw [List.any_eq_false]
    intro receipt inside same
    have filed := List.mem_map_of_mem (f := Receipt.message) inside
    rw [← filing.paired] at filed
    obtain ⟨row, rowMember, message⟩ := List.mem_map.mp filed
    have rowId : row.messageId = messageId :=
      (congrArg Message.messageId message).trans (of_decide_eq_true same)
    exact Table.lookup_eq_none.mp fresh row rowMember rowId
  have returned := @receiptAcceptV1_eq db context read
  simp only [arrived, absent, Bool.false_eq_true, if_false] at returned
  refine ⟨_, returned.trans (by rw [id, named]), ⟨messageId, other.id, processId, "payment.receipt",
    bodyHash, receiptBody read, .received, db.now⟩, ?_, rfl, externalId⟩
  have unknown : Table.lookup InboxRow.messageId messageId db.delivery.inbox = none := fresh
  exact (Table.lookup_append _ _ _ _).trans (by rw [unknown]; simp [Table.lookup])

end Storing

/-! A request to the gateway. -/

section Requests

variable {relay : Relay} {registration : Registration} {config : Config}

theorem handle_unreached {platform : Platform} {packages : Packages} (secret : Option Bytes)
    (catalog : Catalog) (correlationId : Nat) (http : HttpRequest) :
    ∃ answer, ActionEndpoint.handle platform packages secret catalog false correlationId http =
      .error answer := by
  simp only [ActionEndpoint.handle]
  repeat' split
  all_goals first
    | exact ⟨_, rfl⟩
    | exact absurd Bool.false_ne_true ‹_›

theorem invoke_receipt (deployed : relay.Deployed registration config) {db later : Db}
    (configured : db.config = config) {context : Context} {read : Json} {envelope : Envelope}
    (scopes : context.scopes = registration.auth.scopes) (quiet : context.recordDispatch = false)
    (returned : receiptAcceptV1 db context read = .ok (later, envelope)) :
    invoke db "receipt" "accept" (some 1) context read = .ok (later, envelope) := by
  simp only [invoke, configured, deployed.target, scopes, deployed.permitted, not_true_eq_false,
    if_false, deployed.runs, runTarget, returned, recordDispatch, quiet, Bool.false_eq_true,
    not_false_eq_true, if_true]
  rfl

theorem invoked_cases {platform : Platform} {packages : Packages} (admitted : Admitted) (db : Db)
    (called committed : Bool) :
    ActionEndpoint.invoked platform packages admitted db called committed = db ∨
      ∃ payload envelope, PaymentWorkflow.invoke db admitted.state.module admitted.state.action
        admitted.state.explicitVersion admitted.context payload =
          .ok (ActionEndpoint.invoked platform packages admitted db called committed, envelope) := by
  simp only [ActionEndpoint.invoked]
  split
  · exact .inl rfl
  rename_i payload read
  split
  · exact .inl rfl
  split
  · rename_i changed outcome result returned
    split
    · exact .inr ⟨payload, _, returned⟩
    · exact .inl rfl
  · exact .inl rfl
  · exact .inl rfl

theorem Relay.turn_call (relay : Relay) (system : System) (turn : RelayTurn) :
    relay.turn system turn = system ∨ ∃ call, relay.turn system turn = step system call := by
  cases turn with
  | call call => exact .inr ⟨call, rfl⟩
  | request arrived passage =>
      have same : ∀ {db}, db = system.db → { system with db } = system := by
        rintro _ rfl
        rfl
      simp only [Relay.turn, Relay.served]
      split
      · exact .inl rfl
      rename_i http made
      simp only [ActionEndpoint.served]
      split
      · exact .inl rfl
      rename_i admitted passed
      rcases @invoked_cases relay.platform relay.packages admitted system.db passage.called
        passage.committed with unchanged | ⟨payload, envelope, returned⟩
      · exact .inl (same unchanged)
      · refine .inr ⟨.invoke admitted.state.module admitted.state.action
          admitted.state.explicitVersion admitted.context payload, ?_⟩
        simp [step, Call.enabled, execDb, handedOut, returned, Except.toOption]

theorem Relay.run_reached (relay : Relay) {clock : Nat → Time} {digest : String → String} :
    ∀ (turns : List RelayTurn) (calls : List Call), ∃ more,
      Runs.run relay.turn (reached config clock digest calls) turns =
        reached config clock digest (calls ++ more) := by
  intro turns
  induction turns with
  | nil => exact fun calls => ⟨[], by rw [List.append_nil]; rfl⟩
  | cons turn rest ih =>
      intro calls
      rcases relay.turn_call (reached config clock digest calls) turn with same | ⟨call, same⟩
      · rw [Runs.run_cons, same]
        exact ih calls
      · have stepped : step (reached config clock digest calls) call =
            reached config clock digest (calls ++ [call]) := by
          rw [reached_append]
          rfl
        rw [Runs.run_cons, same, stepped]
        obtain ⟨more, reaches⟩ := ih (calls ++ [call])
        exact ⟨call :: more, by rw [reaches, List.append_assoc]; rfl⟩

theorem Relay.run_recalls (relay : Relay) {clock : Nat → Time} {digest : String → String}
    (calls : List Call) (turns : List RelayTurn) :
    (reached config clock digest calls).db.Recalls
      (Runs.run relay.turn (reached config clock digest calls) turns).db := by
  obtain ⟨more, last⟩ := @Relay.run_reached config relay clock digest turns calls
  rw [last]
  exact (@reached_moves config clock digest calls more).recalls (reached_steady calls)

end Requests

/-! The adapter's post. -/

section Posts

variable {relay : Relay} {registration : Registration} {config : Config} {callback : Callback}
  {content externalRequestId messageId : String} {payload : Json} {arrived : GatewayRequest} {db : Db}

theorem WireReceipt.receivable (wire : WireReceipt callback content payload)
    (reads : relay.platform.Reads) {admitted : Admitted} {read : Json}
    (carries : admitted.Carries registration content
      (lowerHex (relay.platform.sha256 content.toUTF8.toList)))
    (same : ∀ key, read.text? key = payload.text? key) :
    Receivable admitted.context read (lowerHex (relay.platform.sha256 content.toUTF8.toList)) where
  verified := carries.verified
  signed := carries.signed
  version := by
    obtain ⟨_, _, _, _, _, _, _, rfl⟩ := wire.fields
    rw [intArgument, same]
    rfl
  hashed := carries.hashed
  hex := isSha256Hex_lowerHex (reads.hashes _)
  occurredAt := by
    rw [same]
    exact wire.dated

structure Names (payload : Json) (externalRequestId messageId : String) : Prop where
  external : payload.text? "externalRequestId" = some externalRequestId
  message : payload.text? "messageId" = some messageId
  response : messageId ≠ "" ∧ messageId.length ≤ 128 ∧
    externalRequestId ≠ "" ∧ externalRequestId.length ≤ 128

theorem WireReceipt.names (wire : WireReceipt callback content payload)
    (operationId : callback.operationId = literal externalRequestId)
    (paymentId : callback.paymentId = literal messageId) :
    Names payload externalRequestId messageId := by
  have limited : ∀ {text : Text} {shown : String}, text = literal shown → text ≠ [] →
      text.length ≤ 128 → shown ≠ "" ∧ shown.length ≤ 128 := by
    rintro text shown rfl filled short
    refine ⟨?_, ?_⟩
    · rintro rfl
      exact filled rfl
    · rw [literal, List.length_map, String.length_toList] at short
      exact short
  have shown : ∀ {text : Text} {name stored : String}, text = literal name →
      storedText? text = some stored → stored = name := by
    rintro text name stored rfl kept
    rw [storedText?_some kept, ofList_literal]
  obtain ⟨_, _, _, _, first, second, _, rfl⟩ := wire.fields
  obtain rfl := shown operationId first
  obtain rfl := shown paymentId second
  have payment := limited paymentId wire.valid.paymentId.1 wire.valid.paymentId.2.1
  have operation := limited operationId wire.valid.operationId.1 wire.valid.operationId.2.1
  exact ⟨rfl, rfl, payment.1, payment.2, operation⟩

section Served

variable (reads : relay.platform.Reads) (deployed : relay.Deployed registration config)
  (wire : WireReceipt callback content payload) (plain : isHeaderText callback.paymentId = true)
  (names : Names payload externalRequestId messageId)
  (arrives : Arrives (relay.post callback content) arrived) (configured : db.config = config)
  (known : (Table.lookup ExternalRequest.id externalRequestId
    db.delivery.externalRequests).isSome = true)

include reads deployed wire plain names arrives configured known

/-- A post for a message that is there changes nothing, however far the API gets with it. -/
theorem served_seen {existing : InboxRow} (seen : db.message? (some messageId) = some existing)
    (passage : Passage) : relay.served db arrived passage = db := by
  obtain ⟨http, made, module, action, signed⟩ := post_arrives deployed plain arrives
  rw [Relay.served, made]
  simp only [ActionEndpoint.served]
  cases passage.reached with
  | false =>
      obtain ⟨answer, refused⟩ := @handle_unreached relay.platform relay.packages
        (providerSecret relay.secret) relay.catalog passage.correlationId http
      rw [refused]
  | true =>
      obtain ⟨admitted, handled, carries⟩ :=
        handle_admits reads deployed wire module action signed passage.correlationId
      obtain ⟨read, cast, same⟩ := reads.casts callback content payload wire
      have returned := receiptAcceptV1_seen (wire.receivable reads carries same)
        ((same _).trans names.external) known (by rw [same, names.message]; exact seen)
      obtain ⟨reply, invoked⟩ : ∃ reply, invoke db "receipt" "accept" (some 1) admitted.context
          read = .ok (db, reply) :=
        ⟨_, invoke_receipt deployed configured carries.scopes carries.quiet returned⟩
      simp only [handled, ActionEndpoint.invoked, carries.payload, cast, carries.module,
        carries.action, carries.version, invoked]
      cases reply with
      | error code message => exact ite_self db
      | ok outcome result => simp only [ite_self]

/-- A post for a message that is not there stores it, where the API gets through with it. -/
theorem served_unseen (ledger : db.Ledger) (lattice : db.delivery.Lattice) (filing : db.Filing)
    (routed : db.Routed) (fresh : db.message? (some messageId) = none) (correlationId : Nat) :
    ∃ row, (relay.served db arrived ⟨correlationId, true, true, true⟩).message? (some messageId) =
      some row ∧ row.bodyHash = lowerHex (relay.platform.sha256 content.toUTF8.toList) ∧
        row.externalRequestId = externalRequestId := by
  obtain ⟨http, made, module, action, signed⟩ := post_arrives deployed plain arrives
  obtain ⟨admitted, handled, carries⟩ :=
    handle_admits reads deployed wire module action signed correlationId
  obtain ⟨read, cast, same⟩ := reads.casts callback content payload wire
  obtain ⟨outcome, judged⟩ := wire.outcome
  obtain ⟨later, returned, row, found, hash, external⟩ := receiptAcceptV1_unseen ledger lattice
    filing routed (wire.receivable reads carries same) ((same _).trans names.external) known
    ((same _).trans names.message) fresh (by rw [same]; exact judged)
  have invoked := invoke_receipt deployed configured carries.scopes carries.quiet returned
  obtain ⟨message, messageShort, request, requestShort⟩ := names.response
  have valid := deployed.response messageId externalRequestId message messageShort request
    requestShort
  have stored : relay.served db arrived ⟨correlationId, true, true, true⟩ = later := by
    rw [Relay.served, made]
    simp only [ActionEndpoint.served, handled, ActionEndpoint.invoked, carries.payload, cast,
      carries.module, carries.action, carries.version, invoked, carries.entry, deployed.outcome,
      valid, and_self, if_true, not_true_eq_false, if_false]
  exact ⟨row, by rw [stored]; exact found, hash, external⟩

end Served

theorem served_reached {clock : Nat → Time} {digest : String → String}
    (reads : relay.platform.Reads) (deployed : relay.Deployed registration config)
    (wire : WireReceipt callback content payload) (plain : isHeaderText callback.paymentId = true)
    (names : Names payload externalRequestId messageId)
    (arrives : Arrives (relay.post callback content) arrived) (calls : List Call)
    (known : (Table.lookup ExternalRequest.id externalRequestId
      (reached config clock digest calls).db.delivery.externalRequests).isSome = true)
    (correlationId : Nat) :
    ∃ row, (relay.served (reached config clock digest calls).db arrived
        ⟨correlationId, true, true, true⟩).message? (some messageId) = some row ∧
      ((reached config clock digest calls).db.message? (some messageId) = none →
        row.bodyHash = lowerHex (relay.platform.sha256 content.toUTF8.toList) ∧
          row.externalRequestId = externalRequestId) := by
  have configured : (reached config clock digest calls).db.config = config := reached_config calls
  cases seen : (reached config clock digest calls).db.message? (some messageId) with
  | some existing =>
      refine ⟨existing, ?_, fun absent => by cases absent⟩
      rw [served_seen reads deployed wire plain names arrives configured known seen]
      exact seen
  | none =>
      have ledger := (@reached_steady config clock digest calls).ledger
      have lattice := reached_lattice config clock digest calls
      have filing := reached_filing config clock digest calls
      have routed := reached_routed config clock digest calls
      obtain ⟨row, found, filed⟩ := served_unseen reads deployed wire plain names arrives configured
        known ledger lattice filing routed seen correlationId
      exact ⟨row, found, fun _ => filed⟩

end Posts

/-! Runs. -/

/-- A message is filed with its receipt, and its request's delivery is confirmed. -/
theorem Db.Filing.confirmed {db : Db} (filing : db.Filing) (lattice : db.delivery.Lattice)
    {message : InboxRow} (member : message ∈ db.delivery.inbox) {row : OutboxRow}
    (queued : row ∈ db.delivery.outbox)
    (same : row.externalRequestId = message.externalRequestId) : row.state = .confirmed := by
  have inside := List.mem_map_of_mem (f := InboxRow.message) member
  rw [filing.paired] at inside
  obtain ⟨receipt, filed, equal⟩ := List.mem_map.mp inside
  have owner : receipt.externalRequestId = message.externalRequestId :=
    congrArg Message.externalRequestId equal
  obtain ⟨external, present, id⟩ := lattice.receipts receipt filed
  have answered : db.delivery.answered external.id = true :=
    List.any_eq_true.mpr ⟨receipt, filed, decide_eq_true id.symm⟩
  have stage := lattice.stage external present row queued (same.trans (owner.symm.trans id.symm))
  rw [answered] at stage
  generalize external.state = reached, row.state = state at stage ⊢
  cases stage
  rfl

structure Db.KeepsOnce (db : Db) (messageId : String) (row : InboxRow) : Prop where
  inbox : db.delivery.inbox.filter (fun other => other.messageId = messageId) = [row]
  receipts : (db.delivery.receipts.filter fun receipt => receipt.messageId = messageId).length = 1
  confirmed : ∀ delivery ∈ db.delivery.outbox,
    delivery.externalRequestId = row.externalRequestId → delivery.state = .confirmed

theorem Db.Filing.keepsOnce {db : Db} (filing : db.Filing) (lattice : db.delivery.Lattice)
    {messageId : String} {row : InboxRow} (found : db.message? (some messageId) = some row) :
    db.KeepsOnce messageId row := by
  obtain ⟨member, id⟩ : row ∈ db.delivery.inbox ∧ row.messageId = messageId :=
    Table.lookup_mem found
  have alone := Table.filter_key filing.unique member
  rw [id] at alone
  refine ⟨alone, ?_, fun delivery queued same => filing.confirmed lattice member queued same⟩
  rw [(filing.storesOnce messageId).receipts, alone]
  rfl

/-- A callback the adapter takes, of a receipt that can be stored under an id that can stand in a
header, ends as one message, however often it is posted and whatever else is called before, in
between and after: the first post that gets through stores it, under the hash of the signed bytes,
and no later one changes anything. -/
theorem callback_kept_once {relay : Relay} {registration : Registration} {config : Config}
    (reads : relay.platform.Reads) (deployed : relay.Deployed registration config)
    (clock : Nat → Time) (digest : String → String) {post : CallbackPost} {legacy : Value}
    {externalRequestId messageId : String}
    (read : AdapterHandler.readLegacy relay.config relay.libraries post = .ok legacy)
    (acceptable : Acceptable legacy)
    (paymentId : Value.field legacy "providerPaymentId" = .text (literal messageId))
    (plain : isHeaderText (literal messageId) = true)
    (operationId : Value.field legacy "operationId" = .text (literal externalRequestId)) :
    ∃ sent, (AdapterHandler.readLegacy relay.config relay.libraries post >>=
        AdapterHandler.prepare relay.config relay.libraries) = .ok sent ∧
      (∀ answered status body, AdapterHandler.doPost relay.config relay.libraries post answered =
        .passed status body ↔ answered sent = .answer (some status) body) ∧
      ∀ arrived, Arrives sent arrived → ∀ (before after : List RelayTurn) (correlationId : Nat),
        let started := Runs.run relay.turn (fresh config clock digest) before
        (Table.lookup ExternalRequest.id externalRequestId
          started.db.delivery.externalRequests).isSome = true →
        let kept := Runs.run relay.turn started
          (.request arrived ⟨correlationId, true, true, true⟩ :: after)
        (∃ row, kept.db.KeepsOnce messageId row ∧
          (started.db.message? (some messageId) = none →
            row.bodyHash = lowerHex (relay.platform.sha256 sent.body.toList) ∧
              row.externalRequestId = externalRequestId)) ∧
        ∀ passage, relay.turn kept (.request arrived passage) = kept := by
  obtain ⟨callback, content, payload, sent, wire⟩ := written_of_acceptable acceptable
  have payment : callback.paymentId = literal messageId :=
    Value.text.inj (sent.paymentId.symm.trans paymentId)
  have operation : callback.operationId = literal externalRequestId :=
    Value.text.inj (sent.operationId.symm.trans operationId)
  have names := wire.names operation payment
  rw [← payment] at plain
  have made : (AdapterHandler.readLegacy relay.config relay.libraries post >>=
      AdapterHandler.prepare relay.config relay.libraries) = .ok (relay.post callback content) := by
    rw [read]
    exact prepare_written sent wire
  refine ⟨relay.post callback content, made, AdapterHandler.doPost_passed made, ?_⟩
  intro arrived arrives before after correlationId started known kept
  obtain ⟨calls, origin⟩ := @Relay.run_reached config relay clock digest before []
  have begun : started = reached config clock digest calls := origin
  rw [begun] at known
  obtain ⟨row, found, filed⟩ :=
    served_reached reads deployed wire plain names arrives calls known correlationId
  obtain ⟨first, posted⟩ := @Relay.run_reached config relay clock digest
    [.request arrived ⟨correlationId, true, true, true⟩] calls
  obtain ⟨more, last⟩ := @Relay.run_reached config relay clock digest after (calls ++ first)
  have ended : kept = reached config clock digest (calls ++ first ++ more) := by
    rw [← last, ← posted, ← begun]
    rfl
  -- Neither the message nor the request it is for is forgotten.
  have recalls := @Relay.run_recalls config relay clock digest (calls ++ first) after
  rw [last, ← posted, ← ended] at recalls
  have earlier := @Relay.run_recalls config relay clock digest calls
    (.request arrived ⟨correlationId, true, true, true⟩ :: after)
  rw [← begun] at earlier
  obtain ⟨message, lastFound, same⟩ := recalls.message _ row found
  have filing : kept.db.Filing := by
    rw [ended]
    exact reached_filing config clock digest _
  have lattice : kept.db.delivery.Lattice := by
    rw [ended]
    exact reached_lattice config clock digest _
  refine ⟨⟨message, filing.keepsOnce lattice lastFound, fun absent => ?_⟩, fun passage => ?_⟩
  · rw [begun] at absent
    obtain ⟨hash, external⟩ := filed absent
    exact ⟨(congrArg InboxRow.bodyHash same).trans hash,
      (congrArg InboxRow.externalRequestId same).trans external⟩
  · have configured : kept.db.config = config := by
      rw [ended]
      exact reached_config _
    rw [← begun] at known
    rw [Relay.turn, served_seen reads deployed wire plain names arrives configured
      (earlier.external _ known) lastFound]

/-! The receipt of the prepared payment, through a relay set up for it. -/

theorem toList_loop (bytes : ByteArray) (index : Nat) (seen : List UInt8) :
    ByteArray.toList.loop bytes index seen = seen.reverse ++ bytes.data.toList.drop index := by
  fun_induction ByteArray.toList.loop bytes index seen with
  | case1 index seen below ih =>
      have inside : index < bytes.data.toList.length := below
      have read : bytes.get! index = bytes.data.toList[index] :=
        (getElem!_pos bytes.data index below).trans (Array.getElem_toList below).symm
      rw [ih, List.reverse_cons, List.append_assoc, List.drop_eq_getElem_cons inside, read]
      rfl
  | case2 index seen beyond =>
      have passed : bytes.data.toList.length ≤ index := Nat.le_of_not_lt beyond
      rw [List.drop_eq_nil_of_le passed, List.append_nil]

theorem toList_bytes (bytes : ByteArray) : (⟨bytes.toList.toArray⟩ : ByteArray) = bytes := by
  rw [ByteArray.toList, toList_loop]
  rfl

theorem AdapterHandler.prepare_headers {config : AdapterConfig} {libraries : AdapterLibraries}
    {legacy : Value} {sent : ReceiptPost}
    (made : AdapterHandler.prepare config libraries legacy = .ok sent) :
    ∃ receipt signature, sent.headers = AdapterHandler.headers config receipt signature := by
  unfold AdapterHandler.prepare at made
  split at made
  · cases made
  split at made
  · cases made
  · cases made
    exact ⟨_, _, rfl⟩

namespace Seed

def relayedBody : Bytes :=
  ("\x7b\"externalRequestId\":\"10\",\"messageId\":\"first\"," ++
    "\"occurredAt\":\"2026-07-15T10:20:30Z\",\"outcome\":\"COMPLETED\"," ++
    "\"providerPaymentId\":\"first\",\"version\":1\x7d").toUTF8.toList

def relayedSignature : Bytes := [
  200, 223, 225, 7, 144, 126, 70, 49, 93, 3, 43, 212, 198, 87, 209, 130, 182, 252, 210, 47, 119,
  170, 33, 233, 21, 140, 196, 156, 219, 247, 166, 60]

def relayedHash : Bytes := [
  200, 150, 55, 101, 2, 87, 97, 250, 49, 184, 168, 148, 59, 26, 31, 98, 3, 78, 77, 242, 64, 62, 6,
  128, 99, 107, 166, 178, 84, 160, 212, 193]

def provider : AuthContext := ⟨"receipt-adapter", "course", ["receipt:write"]⟩

def relayPlatform : Platform where
  hmacSha256 secret body :=
    if secret = "provider-secret".toUTF8.toList ∧ body = relayedBody then relayedSignature
    else List.replicate 32 0
  sha256 body := if body = relayedBody then relayedHash else List.replicate 32 0
  decodeUtf8 bytes := (Python.decode ⟨bytes.toArray⟩).elim "" fun text =>
    String.ofList (text.map CodePoint.toChar)
  parseJson content :=
    (Python.loads (literal content)).map fun value => (storedReceipt? value).getD .null
  castJsonb content := (Python.loads (literal content)).bind storedReceipt?
  validateToken header := if header = "Bearer token" then .accepted provider else .rejected

def relayRegistration : Registration where
  auth := provider
  entry := { receiptAccept with requiredPolicy := ["receipt:write"] }
  row := action "receipt" "accept" "receipt_accept_v1" "receipt:write" ["RECEIVED", "DUPLICATE"]

def relay : Relay where
  config := {
    capability := "capability", receiptApiUrl := "http://gateway:8080/api/receipt/accept"
    token := "token", hmacSecret := "provider-secret" }
  libraries := {
    int := castInt, loads := Dispatcher.Sample.libraries.loads
    hmacSha256 := relayPlatform.hmacSha256 }
  platform := relayPlatform
  packages := ⟨fun _ _ _ => .evaluated true, id⟩
  secret := some "provider-secret"
  catalog := [relayRegistration.entry]

def callbackMembers : List (Text × Value) := [
  (literal "message", .text (literal "done")),
  (literal "occurredAt", .text (literal "2026-07-15T10:20:30Z")),
  (literal "operationId", .text (literal "10")),
  (literal "providerPaymentId", .text (literal "first")),
  (literal "result", .text (literal "COMPLETED"))]

def callbackText : String :=
  "\x7b\"message\":\"done\",\"occurredAt\":\"2026-07-15T10:20:30Z\",\"operationId\":\"10\"," ++
    "\"providerPaymentId\":\"first\",\"result\":\"COMPLETED\"\x7d"

def callbackPost : CallbackPost where
  path := "/callbacks/provider-v02/capability"
  contentLength := some "122"
  stream := callbackText.toUTF8

def arrival (sent : ReceiptPost) : GatewayRequest where
  method := "POST"
  path := String.ofList ((urlTarget sent.url).takeWhile (· ≠ '?'))
  query := String.ofList ((urlTarget sent.url).dropWhile (· ≠ '?'))
  headers := sent.headers.map fun header =>
    (header.1, [String.ofList (header.2.map CodePoint.toChar)])
  contentType := some "application/json"
  contentLength := some sent.body.size
  body := sent.body.toList

theorem encode_literal (content : String) :
    Python.encode (literal content) = some content.toUTF8 := by
  rw [Python.encode, if_neg (by rw [Python.literal_scalar]; exact Bool.false_ne_true),
    ofList_literal]
  rfl

theorem relay_reads : relayPlatform.Reads where
  digests secret body := by
    simp only [relayPlatform]
    split <;> rfl
  hashes body := by
    simp only [relayPlatform]
    split <;> rfl
  utf8 content := by
    simp only [relayPlatform, toList_bytes, Python.decode_encode (encode_literal content),
      Option.elim_some, ofList_literal]
  parses callback content payload written :=
    ⟨_, by simp only [relayPlatform, written.loads, Option.map_some]; rfl⟩
  casts callback content payload written :=
    ⟨payload, by simp only [relayPlatform, written.loads, Option.bind_some, written.stored],
      fun _ => rfl⟩

theorem relay_deployed : relay.Deployed relayRegistration config where
  url := rfl
  hmac := rfl
  shared := rfl
  named := by decide
  bearer := by decide
  token := rfl
  listed := by decide +kernel
  allowed := by decide
  schema _ _ _ _ _ _ := rfl
  outcome := by decide
  response _ _ _ _ _ _ := rfl
  target := by decide +kernel
  runs := by decide
  permitted := by decide

theorem callback_written : literal callbackText = Python.dumps true (.dict callbackMembers) := by
  decide +kernel

theorem callback_read :
    AdapterHandler.readLegacy relay.config relay.libraries callbackPost =
      .ok (.dict callbackMembers) := by
  have path : String.ofList (callbackPost.path.toList.takeWhile (· ≠ '?')) =
      "/callbacks/provider-v02/" ++ relay.config.capability := by decide
  have length : AdapterHandler.contentLength relay.libraries callbackPost = some 122 := by decide
  have whole : callbackPost.stream.extract 0 (122 : Int).toNat = callbackText.toUTF8 := by
    have size : callbackText.toUTF8.size = 122 := by decide +kernel
    change callbackText.toUTF8.extract 0 122 = callbackText.toUTF8
    rw [← size, ByteArray.extract_zero_size]
  have short : ¬ ((122 : Int) ≤ 0 ∨ (122 : Int) > maxBodyBytes) := by decide
  have loaded : relay.libraries.loads (literal callbackText) = .value (.dict callbackMembers) := by
    have read : Python.loads (literal callbackText) = some (.dict callbackMembers) := by
      rw [callback_written]
      refine Python.loads_dumps (by decide) (List.cons_ne_nil _ _) ?_ (by decide)
      intro member inside
      simp only [callbackMembers, List.mem_cons, List.not_mem_nil, or_false] at inside
      rcases inside with rfl | rfl | rfl | rfl | rfl <;>
        exact Python.Member.flat_text (Python.literal_scalar _) (Python.literal_scalar _)
    simp only [relay, Dispatcher.Sample.libraries, read]
  rw [AdapterHandler.readLegacy, if_neg (not_not_intro path), length]
  simp only [short, if_false, whole, Python.decode_encode (encode_literal callbackText), loaded]
  rfl

theorem notified_acceptable : Acceptable (.dict callbackMembers) := by
  obtain ⟨bytes, encoded⟩ := Option.isSome_iff_exists.mp
    ((@Callback.canonicalBytes_isSome notified).mpr (by decide))
  exact ⟨notified.receipt, bytes, notifiedPayload, rfl, encoded,
    Callback.loads_canonicalBytes encoded, by decide +kernel, by decide +kernel, by decide +kernel⟩

theorem arrival_arrives {sent : ReceiptPost} {config : AdapterConfig} {receipt : Value}
    {signature : String} (headers : sent.headers = AdapterHandler.headers config receipt signature) :
    Arrives sent (arrival sent) := by
  have names : (arrival sent).headers.map Prod.fst = ["Authorization", "Content-Type",
      "Idempotency-Key", "X-Action-Version", "X-Provider-Signature"] := by
    rw [arrival, headers]
    rfl
  have distinct : ((arrival sent).headers.map Prod.fst).Pairwise
      (fun left right => Gateway.ignoringCase left right = false) := by
    rw [names]
    decide
  have carried : ∀ name value, (name, value) ∈ sent.headers → Gateway.header?
      (arrival sent).headers name = some [String.ofList (value.map CodePoint.toChar)] :=
    fun name value listed => Gateway.header?_distinct distinct
      (List.mem_map.mpr ⟨(name, value), listed, rfl⟩)
  refine ⟨rfl, rfl, rfl, fun name value listed _ => carried name value listed, ?_, rfl⟩
  intro value found
  have typed := carried "Content-Type" (literal "application/json")
    (by rw [headers]; exact .tail _ (.head _))
  rw [found, ofList_literal] at typed
  cases typed
  rfl

end Seed

/-- The second post of the callback, and a third, add nothing. -/
theorem callback_kept_once_repeated : ∃ arrived row,
    (Runs.run Seed.relay.turn
      (Runs.run Seed.relay.turn (fresh Seed.config (fun tick => (tick : Int)) id) (Seed.prepared.map .call))
      [.request arrived ⟨1, true, true, true⟩, .request arrived ⟨2, true, true, true⟩,
        .request arrived ⟨3, true, true, false⟩]).db.KeepsOnce "first" row ∧
      row.externalRequestId = uuidText 10 := by
  obtain ⟨sent, made, -, keeps⟩ := @callback_kept_once Seed.relay Seed.relayRegistration Seed.config
    Seed.relay_reads Seed.relay_deployed (fun tick => (tick : Int)) id Seed.callbackPost _
    (uuidText 10) "first" Seed.callback_read Seed.notified_acceptable rfl (by decide) rfl
  have headers : ∃ receipt signature, sent.headers =
      AdapterHandler.headers Seed.relay.config receipt signature := by
    have prepared : AdapterHandler.prepare Seed.relay.config Seed.relay.libraries
        (.dict Seed.callbackMembers) = .ok sent := by
      rw [Seed.callback_read] at made
      exact made
    exact AdapterHandler.prepare_headers prepared
  obtain ⟨receipt, signature, shown⟩ := headers
  obtain ⟨⟨row, kept, stored⟩, -⟩ := keeps (Seed.arrival sent) (Seed.arrival_arrives shown)
    (Seed.prepared.map .call) [.request (Seed.arrival sent) ⟨2, true, true, true⟩,
      .request (Seed.arrival sent) ⟨3, true, true, false⟩] 1 (by decide +kernel)
  exact ⟨Seed.arrival sent, row, kept, (stored (by decide +kernel)).2⟩

end PaymentWorkflow
