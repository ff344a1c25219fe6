import PaymentWorkflow.InvokerCore

/-! What a step of an invocation can do: one constructor for each kind of change. -/

namespace PaymentWorkflow

def Answer.Fails : Answer → Prop
  | .ok _ | .replayed _ => False
  | .error .. | .unhandled => True

namespace Flight

/-- What a statement that threw leaves: the transaction as it was or failed, and a reason why
the request will not commit. -/
structure Hit (flight hit : Flight) : Prop where
  state : hit.state = flight.state
  entry : hit.entry = flight.entry
  phase : hit.phase = flight.phase
  running : hit.expired = false → flight.expired = false
  whole : hit.broken = false → flight.broken = false
  session : hit.session = flight.session ∨
    (∃ transaction, flight.session = .live transaction) ∧ hit.session = .live { failed := true }
  doomed : hit.expired = true ∨ hit.broken = true ∨
    ∃ transaction, hit.session = .live transaction ∧ transaction.failed = true

theorem send_ok {flight : Flight} {fault : Option Fault} {transaction : Transaction}
    (sent : flight.send fault = .ok transaction) :
    flight.broken = false ∧ flight.expired = false ∧ flight.session = .live transaction ∧
      fault = none := by
  unfold send at sent
  split at sent
  · cases sent
  · rename_i whole
    split at sent
    · cases sent
    · rename_i running
      split at sent
      · cases sent
        rename_i live
        exact ⟨by simpa using whole, by simpa using running, live, rfl⟩
      all_goals cases sent

theorem send_error {flight hit : Flight} {fault : Option Fault} {exception : Exception}
    (thrown : flight.send fault = .error (exception, hit)) : Hit flight hit := by
  unfold send at thrown
  split at thrown
  · rename_i broken
    cases thrown
    exact ⟨rfl, rfl, rfl, id, id, Or.inl rfl, Or.inr (Or.inl broken)⟩
  · split at thrown
    · rename_i expired
      cases thrown
      exact ⟨rfl, rfl, rfl, id, id, Or.inl rfl, Or.inl expired⟩
    · split at thrown
      · cases thrown
      · rename_i live
        cases thrown
        exact ⟨rfl, rfl, rfl, id, id, Or.inr ⟨⟨_, live⟩, rfl⟩, Or.inr (Or.inr ⟨_, rfl, rfl⟩)⟩
      · rename_i live
        cases thrown
        exact ⟨rfl, rfl, rfl, nofun, id, Or.inr ⟨⟨_, live⟩, rfl⟩, Or.inl rfl⟩
      · cases thrown
        exact ⟨rfl, rfl, rfl, id, nofun, Or.inl rfl, Or.inr (Or.inl rfl)⟩

theorem execute_ok {flight : Flight} {fault : Option Fault} {transaction : Transaction}
    (executed : flight.execute fault = .ok transaction) :
    flight.broken = false ∧ flight.expired = false ∧ flight.session = .live transaction ∧
      fault = none ∧ transaction.failed = false := by
  unfold execute at executed
  split at executed
  · cases executed
  · rename_i sent
    split at executed
    · cases executed
    · rename_i sound
      cases executed
      obtain ⟨whole, running, live, calm⟩ := send_ok sent
      exact ⟨whole, running, live, calm, by simpa using sound⟩

theorem execute_error {flight hit : Flight} {fault : Option Fault} {exception : Exception}
    (thrown : flight.execute fault = .error (exception, hit)) : Hit flight hit := by
  unfold execute at thrown
  split at thrown
  · rename_i raised sent
    cases thrown
    exact send_error sent
  · rename_i transaction sent
    split at thrown
    · rename_i failed
      cases thrown
      obtain ⟨_, _, live, _⟩ := send_ok sent
      exact ⟨rfl, rfl, rfl, id, id, Or.inl rfl, Or.inr (Or.inr ⟨transaction, live, failed⟩)⟩
    · cases thrown

theorem send_refused {flight hit : Flight} {fault : Option Fault} {exception : Exception}
    (thrown : flight.send fault = .error (exception, hit)) (running : hit.expired = false)
    (whole : hit.broken = false) : fault = some .refused := by
  unfold send at thrown
  split at thrown
  · rename_i broken
    cases thrown
    simp [broken] at whole
  · split at thrown
    · rename_i expired
      cases thrown
      simp [expired] at running
    · split at thrown
      · cases thrown
      · rfl
      · cases thrown
        cases running
      · cases thrown
        cases whole

theorem execute_refused {flight hit : Flight} {fault : Option Fault} {exception : Exception}
    {transaction : Transaction} (thrown : flight.execute fault = .error (exception, hit))
    (live : flight.session = .live transaction) (sound : transaction.failed = false)
    (running : hit.expired = false) (whole : hit.broken = false) : fault = some .refused := by
  unfold execute at thrown
  split at thrown
  · rename_i raised sent
    cases thrown
    exact send_refused sent running whole
  · rename_i other sent
    obtain ⟨_, _, same, _⟩ := send_ok sent
    rw [live, Connection.live.injEq] at same
    subst same
    simp [sound] at thrown

def claimRow (flight : Flight) (response : Option Json) : Option IdempotencyRow :=
  flight.state.idempotencyScopeKey.map fun scopeKey =>
    ⟨scopeKey, flight.state.requestId, flight.state.payloadHash, response⟩

def effectOf (flight : Flight) (executed : ActionManifest) (value : Option Json) : Effect :=
  { request := flight.state.correlationId, state := flight.state, entry := flight.entry
    executed, value }

inductive Bookkept (flight : Flight) (fault : Option Fault)
    (write : Transaction → Transaction) : Flight → Prop
  | wrote {transaction : Transaction} (whole : flight.broken = false)
      (running : flight.expired = false) (live : flight.session = .live transaction)
      (sound : transaction.failed = false) (calm : fault = none) :
      Bookkept flight fault write { flight with session := .live (write transaction) }
  | threw {hit : Flight} {exception : Exception}
      (thrown : flight.execute fault = .error (exception, hit)) :
      Bookkept flight fault write hit

inductive Move (packages : Packages) (db : ApiDb) (blocked : Bool) (flight : Flight) :
    Input → ApiDb → Flight → Prop
  | rested {input : Input} : Move packages db blocked flight input db flight
  | expired : Move packages db blocked flight .expire db { flight with expired := true }
  | dropped {transaction : Transaction} (live : flight.session = .live transaction) :
      Move packages db blocked flight .drop db { flight with session := .closed }
  | failed {input : Input} {hit : Flight} {reply : Answer} (before : flight.phase = .begun ∨
        flight.phase = .conflicted ∨ flight.phase = .claimed) (thrown : Hit flight hit)
      (fails : reply.Fails) :
      Move packages db blocked flight input db (hit.answer reply)
  | refused {input : Input} {reply : Answer} (before : flight.phase = .called ∨
        flight.phase = .cleared) (fails : reply.Fails) :
      Move packages db blocked flight input db (flight.answer reply)
  | begun (called : flight.phase = .called)
      (keyed : flight.state.idempotencyScopeKey.isSome = true) :
      Move packages db blocked flight (.begin none) db
        { flight with session := .live {}, phase := .begun }
  | begunUnkeyed (called : flight.phase = .called)
      (unkeyed : flight.state.idempotencyScopeKey = none) :
      Move packages db blocked flight (.begin none) db
        { flight with session := .live {}, phase := .claimed }
  | claimed {scopeKey : String} {transaction : Transaction} (begun : flight.phase = .begun)
      (keyed : flight.state.idempotencyScopeKey = some scopeKey)
      (live : flight.session = .live transaction) (sound : transaction.failed = false)
      (free : blocked = false) (absent : db.stored? scopeKey flight.state.requestId = none) :
      Move packages db blocked flight (.claim none) db
        { flight with
          session := .live { transaction with claim := flight.claimRow none }
          phase := .claimed }
  | conflicted {transaction : Transaction} (begun : flight.phase = .begun)
      (live : flight.session = .live transaction) :
      Move packages db blocked flight (.claim none) db
        { flight.abort with phase := .conflicted }
  | cleared {transaction : Transaction} (conflicted : flight.phase = .conflicted)
      (live : flight.session = .live transaction) :
      Move packages db blocked flight (.rollBack none) db
        { flight with session := .closed, phase := .cleared }
  | replayed {scopeKey : String} {row : IdempotencyRow} {response : Json} {body : OkBody}
      (cleared : flight.phase = .cleared)
      (keyed : flight.state.idempotencyScopeKey = some scopeKey)
      (present : db.stored? scopeKey flight.state.requestId = some row)
      (answered : row.response = some response)
      (same : row.payloadHash = flight.state.payloadHash)
      (read : Envelope.okFromStored response = .ok body) :
      Move packages db blocked flight (.read none) db (flight.answer (.replayed body))
  | invoked {target : TargetRun} {invocation : Invocation} {transaction : Transaction}
      (claimed : flight.phase = .claimed) (whole : flight.broken = false)
      (running : flight.expired = false) (live : flight.session = .live transaction)
      (sound : transaction.failed = false)
      (called : apiInvoke db flight.state.module flight.state.action
        flight.state.explicitVersion flight.context target = .ok invocation) :
      Move packages db blocked flight (.invoke target none) db
        { flight with
          session := .live { transaction with
            effect := invocation.executed.map fun executed => flight.effectOf executed target.value
            dispatch := invocation.dispatch }
          phase := flight.judge packages invocation.reply }
  | rolledBack {outcome : Option String} {reject : Answer} {transaction : Transaction}
      (rejected : flight.phase = .rejected outcome reject)
      (live : flight.session = .live transaction) :
      Move packages db blocked flight (.rollBack none) db
        { flight with session := .closed, phase := .rolledBack outcome reject }
  | unreached {input : Input} {outcome : Option String} {reject reply : Answer}
      (rejected : flight.phase = .rejected outcome reject) (fails : reply.Fails) :
      Move packages db blocked flight input db ({ flight with broken := true }.answer reply)
  | reported {outcome : Option String} {reject : Answer} {written : Bool}
      (rolledBack : flight.phase = .rolledBack outcome reject) :
      Move packages db blocked flight (.logError written)
        (if written ∧ ¬ db.logged flight.state.correlationId then
          { db with dispatches := db.dispatches ++ [flight.state.dispatchRow .error outcome] }
        else db)
        (flight.answer reject)
  | logged {fault : Option Fault} {reply result : Json} {outcome : String} {kept : Flight}
      {next : FlightPhase} (accepted : flight.phase = .accepted reply outcome result)
      (wrote : Bookkept flight fault (fun transaction => { transaction with
        dispatch := some (flight.state.dispatchRow .ok (some outcome)) }) kept)
      (continued : next = if flight.state.idempotencyScopeKey.isSome then
        .logged reply outcome result else .stored outcome result) :
      Move packages db blocked flight (.log fault) db { kept with phase := next }
  | clashed {input : Input} {reply result : Json} {outcome : String} {next : FlightPhase}
      (accepted : flight.phase = .accepted reply outcome result)
      (present : db.logged flight.state.correlationId = true)
      (continued : next = if flight.state.idempotencyScopeKey.isSome then
        .logged reply outcome result else .stored outcome result) :
      Move packages db blocked flight input db { flight.abort with phase := next }
  | stored {fault : Option Fault} {reply result : Json} {outcome : String} {kept : Flight}
      (logged : flight.phase = .logged reply outcome result)
      (wrote : Bookkept flight fault (fun transaction => { transaction with
        claim := transaction.claim.map fun row => { row with response := some reply } }) kept) :
      Move packages db blocked flight (.store fault) db
        { kept with phase := .stored outcome result }
  | committed {outcome : String} {result : Json} {transaction : Transaction}
      (stored : flight.phase = .stored outcome result)
      (whole : flight.broken = false) (running : flight.expired = false)
      (live : flight.session = .live transaction) :
      Move packages db blocked flight (.commit none) (db.commit transaction)
        ({ flight with session := .closed }.answer (flight.okAnswer outcome result))
  | undone {fault : Fault} {outcome : String} {result : Json} {reply : Answer}
      (stored : flight.phase = .stored outcome result) (fails : reply.Fails) :
      Move packages db blocked flight (.commit (some fault)) db
        ({ flight with session := .closed }.answer reply)
  | inDoubt {fault : Fault} {outcome : String} {result : Json} {reply : Answer}
      {transaction : Transaction} {expired broken : Bool}
      (stored : flight.phase = .stored outcome result)
      (whole : flight.broken = false) (running : flight.expired = false)
      (live : flight.session = .live transaction) (fails : reply.Fails) :
      Move packages db blocked flight (.commit (some fault)) db
        ({ flight with session := .committing transaction, expired, broken }.answer reply)
  | unsent {fault : Option Fault} {outcome : String} {result : Json} {reply : Answer}
      {broken : Bool} (stored : flight.phase = .stored outcome result) (fails : reply.Fails) :
      Move packages db blocked flight (.commit fault) db
        ({ flight with broken }.answer reply)
  | settled {transaction : Transaction} {committed : Bool}
      (committing : flight.session = .committing transaction) :
      Move packages db blocked flight (.settle committed)
        (if committed then db.commit transaction else db) { flight with session := .closed }

theorem caught_fails {packages : Packages} {db : ApiDb} {blocked : Bool} {flight hit : Flight}
    {input : Input} (exception : Exception) (before : flight.phase = .begun ∨
      flight.phase = .conflicted ∨ flight.phase = .claimed) (thrown : Hit flight hit) :
    Move packages db blocked flight input db (hit.caught exception) := by
  cases exception with
  | operationCanceled => exact Move.failed before thrown trivial
  | npgsql => exact Move.failed before thrown trivial

section Statements

variable {packages : Packages} {db : ApiDb} {blocked : Bool} {flight : Flight}

theorem begin_move (fault : Option Fault) (called : flight.phase = .called) :
    Move packages db blocked flight (.begin fault) db (flight.begin fault) := by
  cases fault with
  | some fault => exact Move.refused (Or.inl called) trivial
  | none =>
      unfold begin
      by_cases keyed : flight.state.idempotencyScopeKey.isSome = true
      · simp only [keyed, if_true]
        exact Move.begun called keyed
      · simp only [keyed]
        exact Move.begunUnkeyed called (by simpa using keyed)

theorem claim_move {scopeKey : String} (fault : Option Fault) (begun : flight.phase = .begun)
    (keyed : flight.state.idempotencyScopeKey = some scopeKey) :
    Move packages db blocked flight (.claim fault) db (flight.claim db scopeKey blocked fault) := by
  unfold claim
  split
  · rename_i exception hit thrown
    exact caught_fails exception (Or.inl begun) (execute_error thrown)
  · rename_i transaction executed
    obtain ⟨_, _, live, calm, sound⟩ := execute_ok executed
    subst calm
    split
    · exact Move.rested
    · rename_i free
      split
      · exact Move.conflicted begun live
      · rename_i absent
        have claimed : flight.claimRow none =
            some ⟨scopeKey, flight.state.requestId, flight.state.payloadHash, none⟩ := by
          simp [claimRow, keyed]
        rw [← claimed]
        exact Move.claimed begun keyed live sound (by simpa using free) (by simpa using absent)

theorem rollBackClaim_move (fault : Option Fault) (conflicted : flight.phase = .conflicted) :
    Move packages db blocked flight (.rollBack fault) db (flight.rollBackClaim fault) := by
  unfold rollBackClaim
  split
  · rename_i exception hit thrown
    exact caught_fails exception (Or.inr (Or.inl conflicted)) (send_error thrown)
  · rename_i transaction sent
    obtain ⟨_, _, live, calm⟩ := send_ok sent
    subst calm
    exact Move.cleared conflicted live

theorem read_move {scopeKey : String} (fault : Option Fault) (cleared : flight.phase = .cleared)
    (keyed : flight.state.idempotencyScopeKey = some scopeKey) :
    Move packages db blocked flight (.read fault) db (flight.read db scopeKey fault) := by
  unfold read
  split
  · exact Move.refused (Or.inr cleared) trivial
  · split
    · exact Move.refused (Or.inr cleared) trivial
    · rename_i row present
      split
      · exact Move.refused (Or.inr cleared) trivial
      · rename_i response answered
        split
        · rename_i same
          split
          · rename_i body read
            exact Move.replayed cleared keyed present answered same read
          · exact Move.refused (Or.inr cleared) trivial
        · exact Move.refused (Or.inr cleared) trivial

theorem invoke_move (target : TargetRun) (fault : Option Fault)
    (claimed : flight.phase = .claimed) :
    Move packages db blocked flight (.invoke target fault) db
      (flight.invoke packages db target fault) := by
  unfold invoke
  split
  · rename_i exception hit thrown
    exact caught_fails exception (Or.inr (Or.inr claimed)) (execute_error thrown)
  · rename_i transaction executed
    obtain ⟨whole, running, live, calm, sound⟩ := execute_ok executed
    subst calm
    split
    · have thrown : Hit flight flight.abort :=
        ⟨rfl, rfl, rfl, id, id, Or.inr ⟨⟨_, live⟩, rfl⟩, Or.inr (Or.inr ⟨_, rfl, rfl⟩)⟩
      exact caught_fails .npgsql (Or.inr (Or.inr claimed)) thrown
    · rename_i invocation called
      exact Move.invoked claimed whole running live sound called

theorem rollBackRejected_move {outcome : Option String} {reject : Answer} (fault : Option Fault)
    (rejected : flight.phase = .rejected outcome reject) :
    Move packages db blocked flight (.rollBack fault) db
      (flight.rollBackRejected outcome reject fault) := by
  unfold rollBackRejected
  split
  · rename_i live
    exact Move.rolledBack rejected live
  · exact Move.unreached rejected trivial

theorem log_move {reply result : Json} {outcome : String} {next : FlightPhase} (fault : Option Fault)
    (accepted : flight.phase = .accepted reply outcome result)
    (continued : next = if flight.state.idempotencyScopeKey.isSome then
      .logged reply outcome result else .stored outcome result) :
    Move packages db blocked flight (.log fault) db
      { flight.log db outcome fault with phase := next } := by
  unfold log
  split
  · rename_i exception hit thrown
    exact Move.logged accepted (Bookkept.threw thrown) continued
  · rename_i transaction executed
    obtain ⟨whole, running, live, calm, sound⟩ := execute_ok executed
    split
    · rename_i present
      exact Move.clashed accepted present continued
    · exact Move.logged accepted (Bookkept.wrote whole running live sound calm) continued

theorem store_move {reply result : Json} {outcome : String} (fault : Option Fault)
    (logged : flight.phase = .logged reply outcome result) :
    Move packages db blocked flight (.store fault) db
      { flight.store reply fault with phase := .stored outcome result } := by
  unfold store
  split
  · rename_i exception hit thrown
    exact Move.stored logged (Bookkept.threw thrown)
  · rename_i transaction executed
    obtain ⟨whole, running, live, calm, sound⟩ := execute_ok executed
    exact Move.stored logged (Bookkept.wrote whole running live sound calm)

theorem commit_move {outcome : String} {result : Json} (fault : Option Fault)
    (stored : flight.phase = .stored outcome result) :
    Move packages db blocked flight (.commit fault) (flight.commit db outcome result fault).1
      (flight.commit db outcome result fault).2 := by
  unfold commit
  split
  · exact Move.unsent stored trivial
  · rename_i whole
    split
    · exact Move.unsent stored trivial
    · rename_i running
      have whole : flight.broken = false := by simpa using whole
      have running : flight.expired = false := by simpa using running
      split
      · rename_i live
        exact Move.committed stored whole running live
      · exact Move.undone stored trivial
      · rename_i live
        exact Move.inDoubt stored whole running live trivial
      · rename_i live
        exact Move.inDoubt stored whole running live trivial
      · exact Move.unsent stored trivial

end Statements

theorem step_move (packages : Packages) (db : ApiDb) (flight : Flight) (blocked : Bool)
    (input : Input) :
    Move packages db blocked flight input (flight.step packages db blocked input).1
      (flight.step packages db blocked input).2 := by
  unfold step
  split
  · rename_i called
    exact begin_move _ called
  · rename_i begun keyed
    exact claim_move _ begun keyed
  · rename_i conflicted
    exact rollBackClaim_move _ conflicted
  · rename_i cleared keyed
    exact read_move _ cleared keyed
  · rename_i claimed
    exact invoke_move _ _ claimed
  · rename_i rejected
    exact rollBackRejected_move _ rejected
  · rename_i rolledBack
    exact Move.reported rolledBack
  · rename_i accepted keyed
    exact log_move _ accepted (by simp [keyed])
  · rename_i accepted unkeyed
    exact log_move _ accepted (by simp [unkeyed])
  · rename_i logged
    exact store_move _ logged
  · rename_i stored
    exact commit_move _ stored
  · exact Move.expired
  · split
    · rename_i live
      exact Move.dropped live
    · exact Move.rested
  · split
    · rename_i committing
      exact Move.settled committing
    · exact Move.rested
  · exact Move.rested

end Flight

end PaymentWorkflow
