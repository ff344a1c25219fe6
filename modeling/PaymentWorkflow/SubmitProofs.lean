import PaymentWorkflow.SubmitMoves

/-! When concurrent submits of one operation agree. -/

namespace PaymentWorkflow

open RowLocks

/-! A submit that nothing disturbs is the one of `PaymentCore.lean`. -/

section Alone

variable {db : Db} {payload : Json}

def SubmitStage.alone (payload : Json) (place : Db × SubmitStage) (_ : Unit) : Db × SubmitStage :=
  place.2.perform place.1 payload

theorem withOperation_eq (body : Operation → Except SqlError (Db × Envelope)) :
    withOperation db payload body =
      match readOperation db payload with
      | .error reply => .ok (db, reply)
      | .ok operation => body operation := by
  unfold withOperation readOperation
  cases payload.text? "operationId" with
  | none => rfl
  | some content =>
      cases cast : castUuid content with
      | none => simp [cast]
      | some id => cases located : db.payment.operation? id <;> simp [cast, located]

theorem readOperation_mem {operation : Operation} (reads : readOperation db payload = .ok operation) :
    operation ∈ db.payment.operations := by
  unfold readOperation at reads
  split at reads
  · cases reads
  split at reads
  · cases reads
  split at reads
  · cases reads
  · rename_i located
    cases reads
    exact (Table.lookup_mem located).1

theorem startProcess_found {later : Db} {flowName businessKey : String} {data : Json}
    {reply : StartReply} (found : (db.startedProcess? flowName businessKey).isSome = true)
    (returned : startProcess db flowName businessKey data = .ok (later, reply)) : later = db := by
  obtain ⟨existing, found⟩ := Option.isSome_iff_exists.mp found
  unfold startProcess startProcessBody at returned
  by_cases named : isFlowName flowName = true
  · by_cases empty : businessKey = ""
    · simp [named, empty] at returned
    · by_cases same : existing.data.same data = true
      · simp [named, empty, found, same] at returned
        exact returned.1.symm
      · simp [named, empty, found, same] at returned
  · simp [named] at returned

theorem setStatus_submitted {begun : Db} {operation : Operation} {processId : Nat}
    {payloadHash : String}
    (operations : begun.payment.operations = db.payment.operations)
    (events : begun.payment.operationEvents = db.payment.operationEvents)
    (unprocessed : db.unprocessed operation.id = true)
    (taken : db.submitted operation.id = true) :
    setStatus begun operation.id .processing .submitted payloadHash (some processId) =
      .error .uniqueViolation := by
  have located : begun.payment.operation? operation.id = db.payment.operation? operation.id := by
    simp only [Payment.operation?, operations]
  simp only [Db.unprocessed, Option.any_eq_true, decide_eq_true_eq] at unprocessed
  obtain ⟨row, found, status⟩ := unprocessed
  have once : (begun.payment.operationEvents.any fun row =>
      row.operationId = operation.id ∧ row.eventType = .submitted) = true := by
    rw [events]
    exact taken
  simp only [setStatus, located, found, status, if_false, once, and_self, if_true]

theorem setStatus_accepted {begun : Db} {operation : Operation} {processId : Nat}
    (events : begun.payment.operationEvents = db.payment.operationEvents)
    (unsubmitted : db.submitted operation.id = false) (payloadHash : String) :
    ∃ later, setStatus begun operation.id .processing .submitted payloadHash (some processId) =
      .ok later := by
  have once : (begun.payment.operationEvents.any fun row =>
      row.operationId = operation.id ∧ row.eventType = .submitted) = false := by
    rw [events]
    exact unsubmitted
  unfold setStatus
  split
  · exact ⟨_, rfl⟩
  · split
    · exact ⟨_, rfl⟩
    · rw [once]
      exact ⟨_, rfl⟩

theorem alone_pinning {begun : Db} {operation : Operation} {flowName : String}
    {existing : Option StartReply} {reply : StartReply}
    (unprocessed : db.unprocessed operation.id = true)
    (began : SubmitStage.started db operation flowName existing = .ok (begun, reply))
    (operations : begun.payment.operations = db.payment.operations)
    (events : begun.payment.operationEvents = db.payment.operationEvents) (rest : List Unit) :
    Runs.run (SubmitStage.alone payload) (db, .pinning operation flowName existing)
        (() :: () :: () :: rest) =
      match setStatus begun operation.id .processing .submitted (db.digest payload.render)
          (some reply.processId) with
      | .error failure => (db, .ended (.raised failure))
      | .ok later => (later, .ended (.replied (.ok "PROCESSING" (submitResult operation
          reply.processId (some reply.flowName) (some reply.flowVersion))))) := by
  have past : ∀ (rest : List Unit) (shared : Db) (ending : Ending),
      Runs.run (SubmitStage.alone payload) (shared, .ended ending) rest =
        (shared, .ended ending) := by
    intro rest shared ending
    induction rest with
    | nil => rfl
    | cons _ rest ih => exact ih
  have first : SubmitStage.alone payload (db, .pinning operation flowName existing) () =
      (db, .logging operation flowName existing) := by
    simp only [SubmitStage.alone, SubmitStage.perform, unprocessed, if_true]
  rw [Runs.run_cons, first, Runs.run_cons]
  by_cases taken : db.submitted operation.id = true
  · have second : SubmitStage.alone payload (db, .logging operation flowName existing) () =
        (db, .ended (.raised .uniqueViolation)) := by
      simp only [SubmitStage.alone, SubmitStage.perform, taken, if_true]
    rw [second, past, setStatus_submitted operations events unprocessed taken]
  · have unsubmitted := Bool.eq_false_iff.mpr taken
    obtain ⟨later, written⟩ :=
      @setStatus_accepted db begun operation reply.processId events unsubmitted
        (db.digest payload.render)
    have second : SubmitStage.alone payload (db, .logging operation flowName existing) () =
        (db, .committing operation flowName existing true) := by
      simp only [SubmitStage.alone, SubmitStage.perform, unsubmitted, Bool.false_eq_true, if_false]
    have last : SubmitStage.alone payload (db, .committing operation flowName existing true) () =
        (later, .ended (.replied (.ok "PROCESSING" (submitResult operation reply.processId
          (some reply.flowName) (some reply.flowVersion))))) := by
      simp only [SubmitStage.alone, SubmitStage.perform, SubmitStage.commit, began, bind,
        Except.bind, if_true, written]
    rw [second, Runs.run_cons, last, past, written]

/-- Undisturbed, the statements come to what the function returns. -/
theorem submit_alone (steady : db.Steady) :
    Runs.run (SubmitStage.alone payload) (db, .called) (List.replicate 6 ()) =
      match submitV1 db payload with
      | .ok (later, reply) => (later, .ended (.replied reply))
      | .error failure => (db, .ended (.raised failure)) := by
  have first : SubmitStage.alone payload (db, .called) () =
      SubmitStage.perform db payload .called := rfl
  rw [submitV1, withOperation_eq]
  simp only [List.replicate, Runs.run_cons, first, SubmitStage.perform]
  cases reads : readOperation db payload with
  | error reply => rfl
  | ok operation =>
      have member := readOperation_mem reads
      simp only [SubmitStage.afterRead, submitOperation]
      cases pin : operation.processId with
      | some processId => rfl
      | none =>
          by_cases created : operation.status ≠ .created
          · rw [if_pos created, if_pos created]
            rfl
          rw [if_neg created, if_neg created]
          cases bound : db.config.flowBindings.find? fun row =>
              row.operationKind = operation.operationKind with
          | none => rfl
          | some binding =>
              have located : db.payment.operation? operation.id = some operation :=
                Table.lookup_of_mem steady.ledger.operationIds member
              have unprocessed : db.unprocessed operation.id = true := by
                simp only [ne_eq, not_not] at created
                simp [Db.unprocessed, located, created]
              have starts : startProcess db binding.flowName (uuidText operation.id)
                  (processData operation) = startFor db operation binding.flowName := rfl
              simp only [starts]
              cases began : startFor db operation binding.flowName with
              | error failure =>
                  by_cases found : (db.startedProcess? binding.flowName
                      (uuidText operation.id)).isSome = true
                  · simp [SubmitStage.alone, SubmitStage.perform, found, began, bind, Except.bind]
                  · simp [SubmitStage.alone, SubmitStage.perform, found, began, bind, Except.bind]
              | ok result =>
                  obtain ⟨begun, reply⟩ := result
                  have reaches := startProcess_reaches steady.calm began
                  simp only [bind, Except.bind]
                  by_cases found : (db.startedProcess? binding.flowName
                      (uuidText operation.id)).isSome = true
                  · obtain rfl := startProcess_found found began
                    have pins : SubmitStage.alone payload
                        (begun, .starting operation binding.flowName) () =
                          (begun, .pinning operation binding.flowName (some reply)) := by
                      simp only [SubmitStage.alone, SubmitStage.perform, found, began, if_true]
                    have rest := @alone_pinning begun payload begun operation binding.flowName
                      (some reply) reply unprocessed rfl rfl rfl [()]
                    simp only [Runs.run_cons] at rest
                    rw [pins, rest]
                    cases setStatus begun operation.id .processing .submitted
                      (begun.digest payload.render) (some reply.processId) <;> rfl
                  · have begins : SubmitStage.alone payload
                        (db, .starting operation binding.flowName) () =
                          (db, .inserting operation binding.flowName) := by
                      simp only [SubmitStage.alone, SubmitStage.perform, found]
                      rfl
                    have pins : SubmitStage.alone payload
                        (db, .inserting operation binding.flowName) () =
                          (db, .pinning operation binding.flowName none) := by
                      simp only [SubmitStage.alone, SubmitStage.perform, found, began]
                      rfl
                    have rest := @alone_pinning db payload begun operation binding.flowName none
                      reply unprocessed began reaches.moves.operations_eq.1
                      reaches.moves.operations_eq.2 []
                    simp only [Runs.run_cons] at rest
                    rw [begins, pins, rest]
                    cases setStatus begun operation.id .processing .submitted
                      (db.digest payload.render) (some reply.processId) <;> rfl

end Alone

/-! The locks of a submit, and what they keep as it was. -/

def SubmitStage.keyHeld (read : Operation) (flowName : String) :
    Option StartReply → List (Request SubmitRow)
  | none => [⟨.process flowName (uuidText read.id), .update⟩]
  | some _ => []

def SubmitStage.held : SubmitStage → List (Request SubmitRow)
  | .pinning read flowName existing => keyHeld read flowName existing
  | .logging read flowName existing =>
      keyHeld read flowName existing ++ [⟨.operation read.id, .noKeyUpdate⟩]
  | .committing read flowName existing submitted =>
      keyHeld read flowName existing ++
        if submitted then [⟨.operation read.id, .noKeyUpdate⟩, ⟨.submission read.id, .update⟩] else []
  | .called | .replaying .. | .starting .. | .inserting .. | .ended _ => []

def SubmitParty.held : SubmitParty → List (Request SubmitRow)
  | .idle => []
  | .submitting _ stage => stage.held

theorem SubmitStage.takes {db : Db} {payload : Json} {stage : SubmitStage}
    (running : ∀ ending, (stage.perform db payload).2 ≠ .ended ending) :
    (stage.perform db payload).2.held = stage.held ++ (stage.request db).toList := by
  cases stage with
  | called =>
      simp only [perform, afterRead] at running ⊢
      split
      · rename_i refused
        rw [refused] at running
        exact absurd rfl (running _)
      · rename_i operation reads
        rw [reads] at running
        dsimp only at running ⊢
        split
        · rfl
        · rename_i unpinned
          rw [unpinned] at running
          dsimp only at running
          split
          · rename_i taken
            rw [if_pos taken] at running
            exact absurd rfl (running _)
          · rename_i created
            rw [if_neg created] at running
            split
            · rename_i unbound
              rw [unbound] at running
              exact absurd rfl (running _)
            · rfl
  | replaying => exact absurd rfl (running _)
  | starting read flowName =>
      simp only [perform] at running ⊢
      split
      · rename_i found
        rw [if_pos found] at running
        split
        · rename_i refused
          rw [refused] at running
          exact absurd rfl (running _)
        · rfl
      · rfl
  | inserting read flowName =>
      simp only [perform] at running ⊢
      split
      · rename_i refused
        rw [refused] at running
        exact absurd rfl (running _)
      · simp only [held, request]
        split <;> rfl
  | pinning read flowName existing =>
      simp only [perform, request]
      split <;> simp [held]
  | logging read flowName existing =>
      simp only [perform, request] at running ⊢
      split
      · rename_i taken
        rw [if_pos taken] at running
        exact absurd rfl (running _)
      · simp [held]
  | committing read flowName existing submitted =>
      simp only [perform] at running
      split at running
      · exact absurd rfl (running _)
      · exact absurd rfl (running _)
  | ended ending => exact absurd rfl (running _)

theorem submitProgram_accounts : submitProgram.Accounts SubmitParty.held where
  releases := by
    intro system party past
    change SubmitParty.ended (party.perform system).2 = true at past
    change SubmitParty.held (party.perform system).2 = []
    generalize (party.perform system).2 = next at past
    rcases next with _ | ⟨_, stage⟩
    · cases past
    · cases stage <;> first | rfl | cases past
  takes := by
    intro system party running
    change SubmitParty.ended (party.perform system).2 = false at running
    change SubmitParty.held (party.perform system).2 = party.held ++ (party.request system).toList
    rcases party with _ | ⟨payload, stage⟩
    · rfl
    · refine SubmitStage.takes ?_
      intro ending past
      simp only [SubmitParty.perform, past, SubmitParty.ended] at running
      cases running

section Holds

variable {db later : Db} {operation read : Operation} {flowName : String}

theorem SubmitRow.same_refl (db : Db) (row : SubmitRow) : row.same db db = true := by
  cases row <;> simp [SubmitRow.same]

theorem SubmitRow.same_operation {id : Nat} (same : (SubmitRow.operation id).same db later = true) :
    later.unprocessed id = db.unprocessed id := by
  simp only [SubmitRow.same, decide_eq_true_eq] at same
  simp only [Db.unprocessed, same]

theorem SubmitRow.same_submission {id : Nat}
    (same : (SubmitRow.submission id).same db later = true) :
    later.submitted id = db.submitted id := by
  simp only [SubmitRow.same, decide_eq_true_eq] at same
  exact same.symm

/-- What a submit has established outlasts whatever leaves its locked rows as they are. -/
theorem SubmitStage.Holds.moved {stage : SubmitStage} (holds : stage.Holds db operation)
    (ready : db.Ready operation) (moves : SystemMoves db later)
    (locked : ∀ request ∈ stage.held, request.row.same db later = true) :
    stage.Holds later operation := by
  have foundMoved : ∀ {read flowName existing}, operation.Follows read →
      (∀ request ∈ SubmitStage.keyHeld read flowName existing,
        request.row.same db later = true) →
      db.Found operation flowName existing → later.Found operation flowName existing := by
    intro read flowName existing follows keys found
    refine found.moved ready moves ?_
    rintro rfl
    have same := keys ⟨.process flowName (uuidText read.id), .update⟩ List.mem_cons_self
    rwa [follows.id] at same
  cases stage with
  | called | ended => trivial
  | replaying read processId => exact ⟨holds.1, holds.2.moved ready.steady moves⟩
  | starting | inserting => exact ⟨holds.1, holds.2.of_config moves.config_eq⟩
  | pinning read flowName existing =>
      exact ⟨holds.1, holds.2.1.of_config moves.config_eq,
        foundMoved holds.1 locked holds.2.2⟩
  | logging read flowName existing =>
      obtain ⟨follows, bound, found, unprocessed⟩ := holds
      refine ⟨follows, bound.of_config moves.config_eq, foundMoved follows (fun request member =>
        locked request (List.mem_append_left _ member)) found, ?_⟩
      have same := locked ⟨.operation read.id, .noKeyUpdate⟩ (by simp [held])
      rw [follows.id] at same
      rw [SubmitRow.same_operation same]
      exact unprocessed
  | committing read flowName existing submitted =>
      obtain ⟨follows, bound, found, rest⟩ := holds
      refine ⟨follows, bound.of_config moves.config_eq, foundMoved follows (fun request member =>
        locked request (List.mem_append_left _ member)) found, ?_⟩
      cases submitted with
      | true =>
          have same := locked ⟨.operation read.id, .noKeyUpdate⟩ (by simp [held])
          have once := locked ⟨.submission read.id, .update⟩ (by simp [held])
          rw [follows.id] at same once
          simp only [if_true]
          rw [SubmitRow.same_operation same, SubmitRow.same_submission once]
          exact rest
      | false =>
          obtain ⟨known, processId, pinned⟩ := rest
          exact ⟨known, processId, pinned.moved ready.steady moves⟩

/-- While one submit commits its writes, no other holds a lock. -/
theorem SubmitStage.Holds.apart {stage : SubmitStage} {existing : Option StartReply}
    (commits : (committing read flowName existing true).Holds db operation)
    (holds : stage.Holds db operation)
    (compatible : ∀ own ∈ (committing read flowName existing true).held,
      ∀ request ∈ stage.held, request.row = own.row →
        request.mode.conflicts own.mode = false) : stage.held = [] := by
  obtain ⟨follows, bound, found, _⟩ := commits
  have own : ⟨.operation read.id, .noKeyUpdate⟩ ∈ (committing read flowName existing true).held := by
    simp [held]
  have noOperation : ∀ other : Operation, operation.Follows other →
      ⟨.operation other.id, .noKeyUpdate⟩ ∉ stage.held := by
    intro other onward member
    have clash := compatible _ own _ member (by rw [onward.id, follows.id])
    cases clash
  have noKey : ∀ other otherFlow otherExisting, operation.Follows other →
      db.binds operation otherFlow → db.Found operation otherFlow otherExisting →
      (∀ request ∈ keyHeld other otherFlow otherExisting, request ∈ stage.held) →
      otherExisting.isSome = true := by
    intro other otherFlow otherExisting onward otherBound otherFound inside
    obtain rfl := otherBound.unique bound
    cases otherExisting with
    | some reply => rfl
    | none =>
        have member := inside ⟨.process otherFlow (uuidText other.id), .update⟩ List.mem_cons_self
        cases existing with
        | none =>
            have clash := compatible ⟨.process otherFlow (uuidText read.id), .update⟩
              (by simp [held, keyHeld]) _ member (by rw [onward.id, follows.id])
            cases clash
        | some reply =>
            obtain ⟨process, started, _⟩ := found
            have absent : db.startedProcess? otherFlow (uuidText operation.id) = none := otherFound
            rw [started] at absent
            cases absent
  cases stage with
  | called | replaying | starting | inserting | ended => rfl
  | pinning other otherFlow otherExisting =>
      have known := noKey other otherFlow otherExisting holds.1 holds.2.1 holds.2.2
        (fun _ member => member)
      obtain ⟨reply, rfl⟩ := Option.isSome_iff_exists.mp known
      rfl
  | logging other otherFlow otherExisting =>
      exact absurd (by simp [held]) (noOperation other holds.1)
  | committing other otherFlow otherExisting submitted =>
      cases submitted with
      | true => exact absurd (by simp [held]) (noOperation other holds.1)
      | false =>
          have known := noKey other otherFlow otherExisting holds.1 holds.2.1 holds.2.2.1
            (fun _ member => by simpa [held] using member)
          obtain ⟨reply, rfl⟩ := Option.isSome_iff_exists.mp known
          rfl

/-- Only the commit of a submit that has pinned the operation writes. -/
theorem SubmitStage.perform_db {payload : Json} {stage : SubmitStage}
    (holds : stage.Holds db operation) : (stage.perform db payload).1 = db ∨
      ∃ read flowName existing, stage = .committing read flowName existing true := by
  cases stage with
  | called =>
      simp only [perform]
      split <;> exact Or.inl rfl
  | replaying | ended => exact Or.inl rfl
  | starting =>
      simp only [perform]
      split
      · split <;> exact Or.inl rfl
      · exact Or.inl rfl
  | inserting =>
      simp only [perform]
      split <;> exact Or.inl rfl
  | pinning =>
      simp only [perform]
      split <;> exact Or.inl rfl
  | logging =>
      simp only [perform]
      split <;> exact Or.inl rfl
  | committing read flowName existing submitted =>
      cases submitted with
      | true => exact Or.inr ⟨read, flowName, existing, rfl⟩
      | false =>
          obtain ⟨_, _, _, known, _⟩ := holds
          obtain ⟨reply, rfl⟩ := Option.isSome_iff_exists.mp known
          exact Or.inl rfl

end Holds

/-! Any number of submits of one operation. -/

structure SubmitServer.Sound (operation : Operation) (server : SubmitServer) : Prop where
  accounted : server.Accounted SubmitParty.held
  compatible : server.Compatible
  ready : server.shared.db.Ready operation
  names : ∀ index payload stage, server.party index = .submitting payload stage →
    payload.namesOperation operation.id
  holds : ∀ index payload stage, server.party index = .submitting payload stage →
    stage.Holds server.shared.db operation

structure SubmitServer.Agrees (operation : Operation) (server : SubmitServer) : Prop where
  processes : (server.shared.db.processesOf operation).length ≤ 1
  submissions : (server.shared.db.submissions operation.id).length ≤ 1
  answers : ∀ index payload ending, server.party index = .submitting payload (.ended ending) →
    server.shared.db.Answered operation ending

def SubmitServer.Strays (operation : Operation) (server : SubmitServer) : SubmitEvent → Prop
  | .call _ => False
  | .turn index =>
      match server.party index with
      | .idle => False
      | .submitting _ stage => stage.Strays server.shared.db operation

section Server

variable {operation : Operation} {server : SubmitServer}

theorem SubmitStage.Strays.request {db : Db} {stage : SubmitStage} (ready : db.Ready operation)
    (holds : stage.Holds db operation) (strays : stage.Strays db operation) :
    stage.request db = none := by
  cases stage with
  | starting => rfl
  | inserting read flowName =>
      obtain ⟨existing, found, _⟩ := strays
      simp only [SubmitStage.request, holds.1.id, found, Option.isSome_some, if_true]
  | logging read flowName existing =>
      simp only [SubmitStage.request, holds.1.id, submitted_of_closed ready strays, if_true]
  | called | replaying | pinning | committing | ended => exact strays.elim

theorem SubmitServer.Sound.goes (sound : SubmitServer.Sound operation server) {index : Nat}
    {payload : Json} {stage : SubmitStage}
    (party : server.party index = .submitting payload stage) :
    SystemMoves server.shared.db (stage.perform server.shared.db payload).1 ∧
      (stage.perform server.shared.db payload).2.Holds
        (stage.perform server.shared.db payload).1 operation := by
  have holds := sound.holds index payload stage party
  by_cases strays : stage.Strays server.shared.db operation
  · obtain ⟨error, raised⟩ := @SubmitStage.perform_strays _ _ payload _ sound.ready holds strays
    rw [raised]
    exact ⟨.refl, trivial⟩
  · have goes := SubmitStage.perform_goes sound.ready (sound.names index payload stage party) holds
      strays
    exact ⟨goes.moves, goes.holds⟩

theorem SubmitServer.Sound.moves (sound : SubmitServer.Sound operation server)
    (event : SubmitEvent) :
    SystemMoves server.shared.db (submitStep server event).shared.db := by
  cases event with
  | call call =>
      simp only [submitStep]
      split
      · exact step_moves sound.ready.steady call
      · exact .refl
  | turn index =>
      simp only [submitStep, Program.turn]
      split
      · rw [Program.proceed_shared]
        cases party : server.party index with
        | idle => exact .refl
        | submitting payload stage => exact (sound.goes party).1
      · exact .refl

/-- The locked rows of a submit are left as they are by everybody else. -/
theorem SubmitServer.Sound.locked (sound : SubmitServer.Sound operation server)
    {index other : Nat} (different : other ≠ index) {payload otherPayload : Json}
    {stage otherStage : SubmitStage} (party : server.party index = .submitting payload stage)
    (otherParty : server.party other = .submitting otherPayload otherStage) :
    ∀ request ∈ otherStage.held,
      request.row.same server.shared.db (stage.perform server.shared.db payload).1 = true := by
  have holds := sound.holds index payload stage party
  rcases @SubmitStage.perform_db _ _ payload _ holds with same | ⟨read, flowName, existing, rfl⟩
  · rw [same]
    exact fun request _ => SubmitRow.same_refl _ _
  · have nothing := holds.apart (sound.holds other otherPayload otherStage otherParty) (by
      intro own ownMember request member sameRow
      refine Program.held_compatible sound.accounted sound.compatible different ?_ ?_ sameRow
      · rw [otherParty]
        exact member
      · rw [party]
        exact ownMember)
    rw [nothing]
    exact fun request member => absurd member List.not_mem_nil

theorem SubmitServer.Sound.step (sound : SubmitServer.Sound operation server)
    (event : SubmitEvent) : SubmitServer.Sound operation (submitStep server event) := by
  have moves := sound.moves event
  have ready := sound.ready.moved moves
  cases event with
  | call call =>
      simp only [submitStep] at moves ready ⊢
      split
      · rename_i admitted
        rw [if_pos admitted] at moves ready
        refine ⟨sound.accounted, sound.compatible, ready, sound.names, ?_⟩
        intro index payload stage party
        refine (sound.holds index payload stage party).moved sound.ready moves ?_
        intro request member
        have taken : ⟨request, index⟩ ∈ server.locks := by
          refine (sound.accounted ⟨request, index⟩).mpr ?_
          change request ∈ (server.party index).held
          change server.party index = _ at party
          rw [party]
          exact member
        exact List.all_eq_true.mp admitted _ taken
      · exact sound
  | turn index =>
      refine ⟨submitProgram_accounts.turn sound.accounted index,
        sound.compatible.turn submitProgram index, ready, ?_, ?_⟩
      all_goals
        simp only [submitStep, Program.turn]
        split
      · intro other payload stage party
        by_cases own : other = index
        · subst own
          rw [Program.proceed_own] at party
          cases before : server.party other with
          | idle =>
              rw [before] at party
              cases party
          | submitting payload stage =>
              rw [before] at party
              cases party
              exact sound.names other payload stage before
        · rw [Program.proceed_other _ _ _ own] at party
          exact sound.names other payload stage party
      · exact sound.names
      · intro other payload stage party
        rw [Program.proceed_shared]
        by_cases own : other = index
        · subst own
          rw [Program.proceed_own] at party
          cases before : server.party other with
          | idle =>
              rw [before] at party
              cases party
          | submitting payload stage =>
              rw [before] at party
              cases party
              exact (sound.goes before).2
        · rw [Program.proceed_other _ _ _ own] at party
          have holds := sound.holds other payload stage party
          cases before : server.party index with
          | idle => exact holds
          | submitting acting own_ =>
              exact holds.moved sound.ready (sound.goes before).1 (sound.locked own before party)
      · exact sound.holds

theorem SubmitServer.Sound.agrees_iff (sound : SubmitServer.Sound operation server)
    (agrees : SubmitServer.Agrees operation server) (event : SubmitEvent) :
    ¬ SubmitServer.Strays operation server event ↔
      SubmitServer.Agrees operation (submitStep server event) := by
  have next := sound.step event
  have moves := sound.moves event
  constructor
  · intro keeps
    refine ⟨next.ready.processesOf_le, next.ready.submissions_le, ?_⟩
    intro other payload ending party
    -- who was past before has answered, and the answer stays true
    have before : server.party other = .submitting payload (.ended ending) →
        (submitStep server event).shared.db.Answered operation ending :=
      fun past => (agrees.answers other payload ending past).moved sound.ready moves
    cases event with
    | call call =>
        simp only [submitStep] at party before ⊢
        split at party <;> rename_i admitted
        · rw [if_pos admitted] at before ⊢
          exact before party
        · rw [if_neg admitted] at before ⊢
          exact before party
    | turn index =>
        simp only [submitStep, Program.turn] at party before ⊢
        split at party <;> rename_i granted
        · rw [if_pos granted] at before ⊢
          by_cases own : other = index
          · subst own
            rw [Program.proceed_own] at party
            rw [Program.proceed_shared] at before ⊢
            cases acting : server.party other with
            | idle =>
                rw [acting] at party
                cases party
            | submitting own stage =>
                rw [acting] at party before
                have same := SubmitParty.submitting.inj party
                have keepsStage : ¬ stage.Strays server.shared.db operation := by
                  intro strays
                  refine keeps ?_
                  simp only [SubmitServer.Strays, acting]
                  exact strays
                have goes := SubmitStage.perform_goes sound.ready
                  (sound.names other own stage acting) (sound.holds other own stage acting)
                  keepsStage
                by_cases past : stage = .ended ending
                · refine before ?_
                  rw [past, same.1]
                · exact goes.answered ending same.2 past
          · rw [Program.proceed_other _ _ _ own] at party
            exact before party
        · rw [if_neg granted] at before ⊢
          exact before party
  · intro after strays
    cases event with
    | call => exact strays
    | turn index =>
        simp only [SubmitServer.Strays] at strays
        cases party : server.party index with
        | idle =>
            rw [party] at strays
            exact strays
        | submitting payload stage =>
            rw [party] at strays
            have holds := sound.holds index payload stage party
            obtain ⟨error, raised⟩ :=
              @SubmitStage.perform_strays _ _ payload _ sound.ready holds strays
            have unasked : submitProgram.next server index = none := by
              change (server.party index).request server.shared = none
              rw [party]
              exact strays.request sound.ready holds
            have ended : (submitStep server (.turn index)).party index =
                .submitting payload (.ended (.raised error)) := by
              simp only [submitStep, Program.turn, unasked, Server.grants, if_true]
              rw [Program.proceed_own]
              change ((server.party index).perform server.shared).2 = _
              simp only [party, SubmitParty.perform, raised]
            obtain ⟨_, _, _, _, impossible⟩ := after.answers index payload _ ended
            cases impossible

theorem Db.Follows.isClosed {db later : Db} (follows : db.Follows later)
    (ledger : later.Ledger) {operationId : Nat} (closed : db.isClosed operationId = true) :
    later.isClosed operationId = true := by
  simp only [Db.isClosed, Option.any_eq_true] at closed ⊢
  obtain ⟨row, located, terminal⟩ := closed
  obtain ⟨member, rfl⟩ := Table.lookup_mem located
  obtain ⟨after, afterMember, onward⟩ := follows row member
  refine ⟨after, ?_, onward.closed terminal⟩
  rw [← onward.id]
  exact Table.lookup_of_mem ledger.operationIds afterMember

/-- A closed operation stays closed, whatever the submits and everybody else do. -/
theorem SubmitServer.Sound.stays_closed (sound : SubmitServer.Sound operation server)
    (events : List SubmitEvent) {operationId : Nat}
    (closed : server.shared.db.isClosed operationId = true) :
    (Runs.run submitStep server events).shared.db.isClosed operationId = true := by
  refine (Runs.run_invariant (fun state => SubmitServer.Sound operation state ∧
    state.shared.db.isClosed operationId = true) ?_ events server ⟨sound, closed⟩).2
  rintro state event ⟨stateSound, stateClosed⟩
  have moves := stateSound.moves event
  exact ⟨stateSound.step event, (moves.follows stateSound.ready.steady).isClosed
    (moves.steady stateSound.ready.steady).ledger stateClosed⟩

theorem SubmitServer.start_sound {system : System} {calls : Nat → Option Json}
    (ready : system.db.Ready operation)
    (names : ∀ index payload, calls index = some payload → payload.namesOperation operation.id) :
    SubmitServer.Sound operation (SubmitServer.start system calls) := by
  have begins : ∀ index payload stage,
      (SubmitServer.start system calls).party index = .submitting payload stage →
        calls index = some payload ∧ stage = .called := by
    intro index payload stage party
    simp only [SubmitServer.start] at party
    split at party
    · cases party
    · rename_i called
      cases party
      exact ⟨called, rfl⟩
  refine ⟨?_, nofun, ready, ?_, ?_⟩
  · intro lock
    refine iff_of_false List.not_mem_nil ?_
    cases party : (SubmitServer.start system calls).party lock.owner with
    | idle => exact List.not_mem_nil
    | submitting payload stage =>
        rw [(begins _ _ _ party).2]
        exact List.not_mem_nil
  · intro index payload stage party
    exact names index payload (begins index payload stage party).1
  · intro index payload stage party
    rw [(begins index payload stage party).2]
    trivial

end Server

/-- Whatever runs between their statements, the submits of an operation agree on one process, and
the operation is never opened again, in exactly the runs where none of them strays. -/
theorem submits_agree (config : Config) (clock : Nat → Time) (digest : String → String)
    (history : List Call) {operation : Operation}
    (member : operation ∈ (reached config clock digest history).db.payment.operations)
    (starts : (reached config clock digest history).db.starts operation = true)
    (calls : Nat → Option Json)
    (names : ∀ index payload, calls index = some payload → payload.namesOperation operation.id)
    (events : List SubmitEvent) :
    ((∀ done, done <+: events → SubmitServer.Agrees operation (Runs.run submitStep
        (SubmitServer.start (reached config clock digest history) calls) done)) ∧
      ∀ done more, done ++ more <+: events →
        (Runs.run submitStep (SubmitServer.start (reached config clock digest history) calls)
          done).shared.db.isClosed operation.id = true →
        (Runs.run submitStep (SubmitServer.start (reached config clock digest history) calls)
          (done ++ more)).shared.db.isClosed operation.id = true) ↔
      Runs.Guarded submitStep (fun server event => ¬ SubmitServer.Strays operation server event)
        (SubmitServer.start (reached config clock digest history) calls) events := by
  have ready : (reached config clock digest history).db.Ready operation :=
    ⟨reached_steady history, reached_pins history, starts, operation, member, .refl operation⟩
  have sound := SubmitServer.start_sound ready names
  have agrees : SubmitServer.Agrees operation
      (SubmitServer.start (reached config clock digest history) calls) := by
    refine ⟨ready.processesOf_le, ready.submissions_le, ?_⟩
    intro index payload ending party
    simp only [SubmitServer.start] at party
    split at party <;> cases party
  have exactly := Runs.guarded_iff_safe (SubmitServer.Sound operation)
    (SubmitServer.Agrees operation) (fun server event sound => sound.step event)
    (fun server event sound agrees => sound.agrees_iff agrees event) events _ sound agrees
  rw [← exactly, and_iff_left]
  intro done more _ closed
  rw [Runs.run_append]
  exact (Runs.run_invariant (SubmitServer.Sound operation) (fun _ event sound => sound.step event)
    done _ sound).stays_closed more closed

namespace Seed

def approval : Operation := ⟨0, "request", "client", .paymentApproval, 1000, "RUB", .created, none⟩

def submits : Nat → Option Json
  | 0 | 1 => some (.object [("operationId", .text (uuidText 0))])
  | _ => none

def reviewing (jobId stepInstanceId attemptId : Nat) (step : FlowStep) (outcomes : List String) :
    ClaimedJob :=
  { claimed jobId stepInstanceId attemptId step outcomes with
    flowName := "payment-review", processData := processData approval }

/-- One submit has found no process yet when the other one starts it, and goes on when workers
have completed the operation. -/
def stalled : List SubmitEvent :=
  [.turn 1, .turn 1] ++ List.replicate 6 (.turn 0) ++ [
    .call claim,
    .call (.work (reviewing 3 2 5 (internal "validate_operation" "validate" ⟨some 1, []⟩)
      ["VALID"])),
    .call claim,
    .call (.work (reviewing 7 6 9 (internal "check_limit" "check_limit" ⟨some 1, []⟩)
      ["WITHIN_LIMIT", "REVIEW_REQUIRED"])),
    .call claim,
    .call (.work (reviewing 12 11 14 (internal "approve_operation" "approve" ⟨some 2, [200]⟩)
      ["APPROVED"]))] ++ [.turn 1, .turn 1, .turn 1]

theorem submits_names (index : Nat) (payload : Json) (called : submits index = some payload) :
    payload.namesOperation approval.id := by
  unfold submits at called
  split at called
  · cases called
    unfold Json.namesOperation
    decide +kernel
  · cases called
    unfold Json.namesOperation
    decide +kernel
  · cases called

end Seed

theorem submits_agree_at_once :
    SubmitServer.Agrees Seed.approval (Runs.run submitStep (SubmitServer.start
      (seeded [Seed.request "PAYMENT_APPROVAL" "10.00"]) Seed.submits) [.turn 0, .turn 1]) := by
  have requested : Seed.approval ∈
      (seeded [Seed.request "PAYMENT_APPROVAL" "10.00"]).db.payment.operations := by decide +kernel
  have agree := submits_agree Seed.config (fun tick => (tick : Int)) id
    [Seed.request "PAYMENT_APPROVAL" "10.00"] requested (by decide +kernel) Seed.submits Seed.submits_names [.turn 0, .turn 1]
  refine (agree.mpr ⟨?_, ?_, trivial⟩).1 _ (List.prefix_refl _)
  · exact fun strays => strays
  · exact fun strays => strays

theorem Seed.stalled_raises :
    (Runs.run submitStep (SubmitServer.start (reached Seed.config (fun tick => (tick : Int)) id
      [Seed.request "PAYMENT_APPROVAL" "10.00"]) Seed.submits) Seed.stalled).party 1 =
        .submitting (.object [("operationId", .text (uuidText 0))])
          (.ended (.raised .uniqueViolation)) := by
  decide +kernel

/-- The submit that goes on after the operation is completed is answered with an error. -/
theorem stalled_submit_fails :
    ¬ ∀ (config : Config) (clock : Nat → Time) (digest : String → String) (history : List Call)
      (operation : Operation),
      operation ∈ (reached config clock digest history).db.payment.operations →
      (reached config clock digest history).db.starts operation = true →
      ∀ calls : Nat → Option Json,
        (∀ index payload, calls index = some payload → payload.namesOperation operation.id) →
        ∀ events done : List SubmitEvent, done <+: events →
          SubmitServer.Agrees operation (Runs.run submitStep
            (SubmitServer.start (reached config clock digest history) calls) done) := by
  intro always
  have agrees := always Seed.config (fun tick => (tick : Int)) id
    [Seed.request "PAYMENT_APPROVAL" "10.00"] Seed.approval (by decide +kernel) (by decide +kernel)
    Seed.submits Seed.submits_names Seed.stalled Seed.stalled (List.prefix_refl _)
  obtain ⟨_, _, _, _, impossible⟩ := agrees.answers 1 _ _ Seed.stalled_raises
  cases impossible

end PaymentWorkflow
