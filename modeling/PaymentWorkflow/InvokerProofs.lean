import PaymentWorkflow.InvokerMoves

/-! The invariant of the API: what each transaction holds, and what the tables owe to it. -/

namespace PaymentWorkflow

/-! `api.invoke` and the tests of its envelope. -/

theorem checkEnvelope_errorReply {packages : Packages} {entry : ActionManifest}
    {code message : String} {correlationId : Nat} {version : Option Int} :
    checkEnvelope packages entry (errorReply code message correlationId version) =
      .ok .domainError := by
  have shallow : (errorReply code message correlationId version).depth ≤ 64 := by
    cases version <;> simp [errorReply, Json.depth, Json.membersDepth]
  unfold checkEnvelope
  rw [parseDocument, if_pos shallow]
  simp [errorReply, JsonElement.tryGetString, JsonElement.tryGetProperty, JsonElement.getString,
    Json.member?, bind, Except.bind]

/-- A reply that is not an error of `api.invoke` itself is the value of the target it ran. -/
theorem apiInvoke_returned {db : ApiDb} {module action : String} {version : Option Int}
    {context : InvokeContext} {target : TargetRun} {invocation : Invocation}
    (called : apiInvoke db module action version context target = .ok invocation)
    (passed : ∀ code message number,
      invocation.reply ≠ errorReply code message context.correlationId number) :
    ∃ row, db.catalog.invoked module action version = .ok row ∧ invocation.executed = some row ∧
      target.value = some invocation.reply ∧
      recordedDispatch db.dispatches row context invocation.reply = .ok invocation.dispatch ∧
      hasStatus invocation.reply = true := by
  unfold apiInvoke at called
  split at called
  · cases called
    exact absurd rfl (passed _ _ _)
  · rename_i row found
    dsimp only at called
    split at called
    · cases called
      exact absurd rfl (passed _ _ _)
    · split at called
      · cases called
        exact absurd rfl (passed _ _ _)
      · cases called
        exact absurd rfl (passed _ _ _)
      · cases called
        exact absurd rfl (passed _ _ _)
      · rename_i value
        split at called
        · cases called
          exact absurd rfl (passed _ _ _)
        · rename_i status
          obtain ⟨dispatch, recorded, rest⟩ := Runs.bind_eq_ok.mp called
          cases rest
          exact ⟨row, found, rfl, rfl, recorded, by simpa using status⟩

theorem apiInvoke_accepted {packages : Packages} {db : ApiDb} {module action : String}
    {version : Option Int} {context : InvokeContext} {target : TargetRun}
    {invocation : Invocation} {entry : ActionManifest} {outcome : String} {result : Json}
    (called : apiInvoke db module action version context target = .ok invocation)
    (accepted : checkEnvelope packages entry invocation.reply = .ok (.accepted outcome result)) :
    ∃ row, invocation.executed = some row ∧ target.value = some invocation.reply ∧
      hasStatus invocation.reply = true := by
  obtain ⟨row, _, executed, value, _, status⟩ := apiInvoke_returned called (by
    intro code message number same
    rw [same, checkEnvelope_errorReply] at accepted
    cases accepted)
  exact ⟨row, executed, value, status⟩

theorem apiInvoke_unrecorded {db : ApiDb} {module action : String} {version : Option Int}
    {context : InvokeContext} {target : TargetRun} {invocation : Invocation}
    (called : apiInvoke db module action version context target = .ok invocation)
    (unrecorded : context.recordDispatch = false) : invocation.dispatch = none := by
  unfold apiInvoke at called
  split at called
  · cases called
    rfl
  · dsimp only at called
    split at called
    · cases called
      rfl
    · split at called
      · cases called
        rfl
      · cases called
        rfl
      · cases called
        rfl
      · split at called
        · cases called
          rfl
        · obtain ⟨dispatch, recorded, rest⟩ := Runs.bind_eq_ok.mp called
          cases rest
          simp only [recordedDispatch, unrecorded] at recorded
          cases recorded
          rfl

/-! What a transaction holds at each point of an invocation. -/

def Effect.row? (effect : Effect) : Option IdempotencyRow :=
  effect.state.idempotencyScopeKey.map fun scopeKey =>
    ⟨scopeKey, effect.state.requestId, effect.state.payloadHash, effect.value⟩

def Effect.key? (effect : Effect) : Option (String × String) :=
  effect.state.idempotencyScopeKey.map fun scopeKey => (scopeKey, effect.state.requestId)

namespace Flight

def key? (flight : Flight) : Option (String × String) :=
  flight.state.idempotencyScopeKey.map fun scopeKey => (scopeKey, flight.state.requestId)

structure Acts (packages : Packages) (flight : Flight) (effect : Effect) (reply : Json)
    (outcome : String) (result : Json) : Prop where
  request : effect.request = flight.state.correlationId
  state : effect.state = flight.state
  entry : effect.entry = flight.entry
  value : effect.value = some reply
  status : hasStatus reply = true
  accepted : checkEnvelope packages flight.entry reply = .ok (.accepted outcome result)

structure Complete (packages : Packages) (flight : Flight) (transaction : Transaction)
    (effect : Effect) (outcome : String) (result : Json) : Prop where
  acts : ∃ reply, Acts packages flight effect reply outcome result
  holds : transaction =
    { claim := effect.row?, effect := some effect
      dispatch := some (flight.state.dispatchRow .ok (some outcome)) }

def Expects (packages : Packages) (flight : Flight) (transaction : Transaction) : Prop :=
  match flight.phase with
  | .called | .conflicted | .cleared | .rolledBack _ _ => False
  | .begun => transaction = {}
  | .claimed => transaction = { claim := flight.claimRow none }
  | .rejected _ _ => transaction.claim = flight.claimRow none
  | .accepted reply outcome result => ∃ effect, Acts packages flight effect reply outcome result ∧
      transaction = { claim := flight.claimRow none, effect := some effect }
  | .logged reply outcome result =>
      transaction.claim = flight.claimRow none ∧
      (flight.expired = true ∨ flight.broken = true ∨
        ∃ effect, Acts packages flight effect reply outcome result ∧
          transaction = { claim := flight.claimRow none, effect := some effect
                          dispatch := some (flight.state.dispatchRow .ok (some outcome)) })
  | .stored outcome result =>
      (∃ response, transaction.claim = flight.claimRow response) ∧
      (flight.expired = true ∨ flight.broken = true ∨
        ∃ effect, Complete packages flight transaction effect outcome result)
  | .answered _ => transaction.claim = none ∨ ∃ response, transaction.claim = flight.claimRow response

def lost : Transaction := { failed := true }

structure Sound (packages : Packages) (flight : Flight) : Prop where
  live : ∀ transaction, flight.session = .live transaction →
    transaction = lost ∨ transaction.failed = false ∧ flight.Expects packages transaction
  committing : ∀ transaction, flight.session = .committing transaction →
    (∃ answer, flight.phase = .answered answer) ∧
      (transaction = lost ∨ ∃ effect outcome result,
        Complete packages flight transaction effect outcome result)
  rejects : ∀ outcome answer, flight.phase = .rejected outcome answer ∨
    flight.phase = .rolledBack outcome answer → answer.Fails

theorem judge_cases (packages : Packages) (flight : Flight) (reply : Json) :
    flight.judge packages reply = .answered .unhandled ∨
    (∃ outcome answer, flight.judge packages reply = .rejected outcome answer ∧ answer.Fails) ∨
    ∃ outcome result, flight.judge packages reply = .accepted reply outcome result ∧
      checkEnvelope packages flight.entry reply = .ok (.accepted outcome result) := by
  unfold judge
  split
  · exact Or.inl rfl
  · split
    · rename_i answer formed
      refine Or.inr (Or.inl ⟨none, answer, rfl, ?_⟩)
      unfold Envelope.domainError at formed
      obtain ⟨code, _, formed⟩ := Runs.bind_eq_ok.mp formed
      obtain ⟨message, _, formed⟩ := Runs.bind_eq_ok.mp formed
      cases formed
      trivial
    · exact Or.inr (Or.inl ⟨none, .unhandled, rfl, trivial⟩)
  · exact Or.inr (Or.inl ⟨_, _, rfl, trivial⟩)
  · rename_i outcome result checked
    exact Or.inr (Or.inr ⟨outcome, result, rfl, checked⟩)

def Owns (flight : Flight) (transaction : Transaction) : Prop :=
  transaction.claim = none ∨ ∃ response, transaction.claim = flight.claimRow response

theorem Acts.of_eq {packages : Packages} {flight other : Flight} {effect : Effect} {reply : Json}
    {outcome : String} {result : Json} (acts : Acts packages flight effect reply outcome result)
    (state : other.state = flight.state) (entry : other.entry = flight.entry) :
    Acts packages other effect reply outcome result where
  request := by rw [acts.request, state]
  state := by rw [acts.state, state]
  entry := by rw [acts.entry, entry]
  value := acts.value
  status := acts.status
  accepted := by rw [entry]; exact acts.accepted

theorem Complete.of_eq {packages : Packages} {flight other : Flight} {transaction : Transaction}
    {effect : Effect} {outcome : String} {result : Json}
    (complete : Complete packages flight transaction effect outcome result)
    (state : other.state = flight.state) (entry : other.entry = flight.entry) :
    Complete packages other transaction effect outcome result where
  acts := by
    obtain ⟨reply, acts⟩ := complete.acts
    exact ⟨reply, acts.of_eq state entry⟩
  holds := by rw [complete.holds]; simp only [state]

section Steps

variable {packages : Packages} {db later : ApiDb} {blocked : Bool} {flight after : Flight}
  {input : Input}

theorem Complete.owns {transaction : Transaction} {effect : Effect} {outcome : String}
    {result : Json} (complete : Complete packages flight transaction effect outcome result) :
    flight.Owns transaction := by
  obtain ⟨reply, acts⟩ := complete.acts
  refine Or.inr ⟨some reply, ?_⟩
  rw [complete.holds]
  simp only [Effect.row?, claimRow, acts.state, acts.value]

theorem Expects.owns {transaction : Transaction}
    (expects : flight.Expects packages transaction) : flight.Owns transaction := by
  unfold Expects at expects
  split at expects
  · exact expects.elim
  · exact expects.elim
  · exact expects.elim
  · exact expects.elim
  · exact Or.inl (by rw [expects])
  · exact Or.inr ⟨none, by rw [expects]⟩
  · exact Or.inr ⟨none, expects⟩
  · obtain ⟨effect, _, content⟩ := expects
    exact Or.inr ⟨none, by rw [content]⟩
  · exact Or.inr ⟨none, expects.1⟩
  · exact Or.inr expects.1
  · exact expects

theorem Sound.owns (sound : flight.Sound packages) {transaction : Transaction}
    (open_ : flight.session = .live transaction ∨ flight.session = .committing transaction) :
    flight.Owns transaction := by
  rcases open_ with live | committing
  · rcases sound.live transaction live with lost | ⟨_, expects⟩
    · exact Or.inl (by rw [lost]; rfl)
    · exact expects.owns
  · rcases (sound.committing transaction committing).2 with lost | ⟨effect, outcome, result, complete⟩
    · exact Or.inl (by rw [lost]; rfl)
    · exact complete.owns

/-- An answer gives up the transaction; nothing is expected of it any more. -/
theorem Sound.answered (sound : flight.Sound packages) (reply : Answer)
    (state : after.state = flight.state) (entry : after.entry = flight.entry)
    (session : after.session = flight.session ∨ after.session = .live lost) :
    (after.answer reply).Sound packages where
  live := by
    intro transaction live
    rcases session with same | aborted
    · rcases sound.live transaction (same.symm.trans live) with lost | ⟨healthy, expects⟩
      · exact Or.inl lost
      · refine Or.inr ⟨healthy, ?_⟩
        have owns := expects.owns
        simpa only [Expects, answer, Owns, claimRow, state] using owns
    · exact Or.inl (Connection.live.inj (live.symm.trans aborted))
  committing := by
    intro transaction committing
    rcases session with same | aborted
    · refine ⟨⟨reply, rfl⟩, ?_⟩
      rcases (sound.committing transaction (same.symm.trans committing)).2 with
        lost | ⟨effect, outcome, result, complete⟩
      · exact Or.inl lost
      · exact Or.inr ⟨effect, outcome, result, complete.of_eq state entry⟩
    · cases committing.symm.trans aborted
  rejects := by
    intro outcome other phase
    rcases phase with phase | phase <;> cases phase

theorem Bookkept.hit {fault : Option Fault} {write : Transaction → Transaction}
    (kept : Bookkept flight fault write after) :
    after.state = flight.state ∧ after.entry = flight.entry ∧ after.phase = flight.phase := by
  cases kept with
  | wrote => exact ⟨rfl, rfl, rfl⟩
  | threw thrown =>
      have hit := execute_error thrown
      exact ⟨hit.state, hit.entry, hit.phase⟩

/-- What a swallowed statement leaves: nothing, the transaction before it on a flight that
will not commit, or the transaction it wrote to. -/
theorem Bookkept.cases {fault : Option Fault} {write : Transaction → Transaction}
    {transaction : Transaction} (kept : Bookkept flight fault write after)
    (live : after.session = .live transaction)
    (failing : ∀ earlier, flight.session = .live earlier → earlier.failed = true → earlier = lost) :
    transaction = lost ∨
    (flight.session = .live transaction ∧ (after.expired = true ∨ after.broken = true)) ∨
    ∃ earlier, flight.session = .live earlier ∧ earlier.failed = false ∧
      flight.expired = false ∧ flight.broken = false ∧ transaction = write earlier := by
  cases kept with
  | wrote whole running before healthy _ =>
      exact Or.inr (Or.inr ⟨_, before, healthy, running, whole, (Connection.live.inj live).symm⟩)
  | threw thrown =>
      have hit := execute_error thrown
      rcases hit.session with same | ⟨_, aborted⟩
      · rcases hit.doomed with expired | broken | ⟨other, held, failed⟩
        · exact Or.inr (Or.inl ⟨same.symm.trans live, Or.inl expired⟩)
        · exact Or.inr (Or.inl ⟨same.symm.trans live, Or.inr broken⟩)
        · have equal := Connection.live.inj (held.symm.trans live)
          subst equal
          exact Or.inl (failing _ (same.symm.trans live) failed)
      · exact Or.inl (Connection.live.inj (live.symm.trans aborted))

theorem Sound.failing (sound : flight.Sound packages) (transaction : Transaction)
    (live : flight.session = .live transaction) (failed : transaction.failed = true) :
    transaction = lost := by
  rcases sound.live transaction live with gone | ⟨healthy, _⟩
  · exact gone
  · rw [healthy] at failed
    cases failed

theorem Bookkept.session {fault : Option Fault} {write : Transaction → Transaction}
    (kept : Bookkept flight fault write after) :
    after.session = flight.session ∨ ∃ transaction, after.session = .live transaction := by
  cases kept with
  | wrote => exact Or.inr ⟨_, rfl⟩
  | threw thrown =>
      rcases (execute_error thrown).session with same | ⟨_, aborted⟩
      · exact Or.inl same
      · exact Or.inr ⟨_, aborted⟩

theorem Sound.of_closed (closed : after.session = .closed)
    (rejects : ∀ outcome answer, after.phase = .rejected outcome answer ∨
      after.phase = .rolledBack outcome answer → answer.Fails) : after.Sound packages where
  live := by
    intro transaction live
    rw [closed] at live
    cases live
  committing := by
    intro transaction committing
    rw [closed] at committing
    cases committing
  rejects := rejects

theorem Sound.of_live {transaction : Transaction} (live : after.session = .live transaction)
    (content : transaction = lost ∨ transaction.failed = false ∧ after.Expects packages transaction)
    (rejects : ∀ outcome answer, after.phase = .rejected outcome answer ∨
      after.phase = .rolledBack outcome answer → answer.Fails) : after.Sound packages where
  live := by
    intro other held
    have same := Connection.live.inj (live.symm.trans held)
    subst same
    exact content
  committing := by
    intro other committing
    rw [live] at committing
    cases committing
  rejects := rejects

theorem Expects.of_eq {transaction : Transaction} (expects : flight.Expects packages transaction)
    (state : after.state = flight.state) (entry : after.entry = flight.entry)
    (phase : after.phase = flight.phase) (expired : flight.expired = true → after.expired = true)
    (broken : flight.broken = true → after.broken = true) :
    after.Expects packages transaction := by
  have row : ∀ response, after.claimRow response = flight.claimRow response := by
    intro response
    simp only [claimRow, state]
  unfold Expects at expects ⊢
  rw [phase]
  split
  · simp_all only
  · simp_all only
  · simp_all only
  · simp_all only
  · rename_i same
    simpa only [same] using expects
  · rename_i same
    simpa only [same, row] using expects
  · rename_i same
    simpa only [same, row] using expects
  · rename_i same
    simp only [same] at expects
    obtain ⟨effect, acts, content⟩ := expects
    exact ⟨effect, acts.of_eq state entry, by rw [row]; exact content⟩
  · rename_i same
    simp only [same] at expects
    refine ⟨by rw [row]; exact expects.1, ?_⟩
    rcases expects.2 with late | cut | ⟨effect, acts, content⟩
    · exact Or.inl (expired late)
    · exact Or.inr (Or.inl (broken cut))
    · refine Or.inr (Or.inr ⟨effect, acts.of_eq state entry, ?_⟩)
      rw [row, content]
      simp only [state]
  · rename_i same
    simp only [same] at expects
    refine ⟨by simpa only [row] using expects.1, ?_⟩
    rcases expects.2 with late | cut | ⟨effect, complete⟩
    · exact Or.inl (expired late)
    · exact Or.inr (Or.inl (broken cut))
    · exact Or.inr (Or.inr ⟨effect, complete.of_eq state entry⟩)
  · rename_i same
    simpa only [same, row] using expects

theorem Sound.expire (sound : flight.Sound packages) :
    ({ flight with expired := true } : Flight).Sound packages where
  live := by
    intro transaction live
    refine (sound.live transaction live).imp_right fun content => ⟨content.1, ?_⟩
    exact content.2.of_eq rfl rfl rfl (fun _ => rfl) id
  committing := by
    intro transaction committing
    obtain ⟨answered, content⟩ := sound.committing transaction committing
    refine ⟨answered, content.imp_right ?_⟩
    rintro ⟨effect, outcome, result, complete⟩
    exact ⟨effect, outcome, result, complete.of_eq rfl rfl⟩
  rejects := sound.rejects

theorem Sound.invoke (sound : flight.Sound packages) {target : TargetRun} {invocation : Invocation}
    {transaction : Transaction} (claimed : flight.phase = .claimed)
    (live : flight.session = .live transaction) (healthy : transaction.failed = false)
    (called : apiInvoke db flight.state.module flight.state.action flight.state.explicitVersion
      flight.context target = .ok invocation) :
    ({ flight with
        session := .live { transaction with
          effect := invocation.executed.map fun executed => flight.effectOf executed target.value
          dispatch := invocation.dispatch }
        phase := flight.judge packages invocation.reply } : Flight).Sound packages := by
  have content : transaction = { claim := flight.claimRow none } := by
    rcases sound.live transaction live with gone | ⟨_, expects⟩
    · rw [gone] at healthy
      cases healthy
    · simpa only [Expects, claimed] using expects
  have undispatched := apiInvoke_unrecorded called rfl
  subst content
  refine Sound.of_live rfl (Or.inr ⟨rfl, ?_⟩) ?_
  · rcases judge_cases packages flight invocation.reply with
      thrown | ⟨outcome, answer, rejected, _⟩ | ⟨outcome, result, judged, accepted⟩
    · simp only [Expects, thrown]
      exact Or.inr ⟨none, rfl⟩
    · simp only [Expects, rejected]
      rfl
    · obtain ⟨row, executed, value, status⟩ := apiInvoke_accepted called accepted
      simp only [Expects, judged]
      refine ⟨flight.effectOf row target.value, ⟨rfl, rfl, rfl, value, status, accepted⟩, ?_⟩
      rw [executed, undispatched]
      rfl
  · intro outcome answer phase
    rcases judge_cases packages flight invocation.reply with
      thrown | ⟨other, reply, rejected, fails⟩ | ⟨other, result, judged, _⟩
    · simp [thrown] at phase
    · simp only [rejected, FlightPhase.rejected.injEq, reduceCtorEq, or_false] at phase
      rw [← phase.2]
      exact fails
    · simp [judged] at phase

theorem Sound.log (sound : flight.Sound packages) {fault : Option Fault} {reply result : Json}
    {outcome : String} {kept : Flight} {next : FlightPhase}
    (accepted : flight.phase = .accepted reply outcome result)
    (wrote : Bookkept flight fault (fun transaction => { transaction with
      dispatch := some (flight.state.dispatchRow .ok (some outcome)) }) kept)
    (continued : next = if flight.state.idempotencyScopeKey.isSome then
      .logged reply outcome result else .stored outcome result) :
    ({ kept with phase := next } : Flight).Sound packages := by
  obtain ⟨state, entry, _⟩ := wrote.hit
  refine ⟨?_, ?_, ?_⟩
  · intro transaction live
    rcases wrote.cases live sound.failing with
      gone | ⟨before, doomed⟩ | ⟨earlier, before, healthy, running, whole, written⟩
    · exact Or.inl gone
    · rcases sound.live transaction before with gone | ⟨healthy, expects⟩
      · exact Or.inl gone
      · simp only [Expects, accepted] at expects
        obtain ⟨effect, acts, content⟩ := expects
        have row : ∀ response, ({ kept with phase := next } : Flight).claimRow response =
            flight.claimRow response := fun response => by simp only [claimRow, state]
        refine Or.inr ⟨healthy, ?_⟩
        subst continued
        by_cases keyed : flight.state.idempotencyScopeKey.isSome = true
        · simp only [keyed, if_true, Expects]
          exact ⟨by rw [content]; simp only [claimRow, state], doomed.imp_right Or.inl⟩
        · simp only [keyed, Expects]
          exact ⟨⟨none, by rw [content]; simp only [claimRow, state]⟩, doomed.imp_right Or.inl⟩
    · rcases sound.live earlier before with gone | ⟨_, expects⟩
      · rw [gone] at healthy
        cases healthy
      · simp only [Expects, accepted] at expects
        obtain ⟨effect, acts, content⟩ := expects
        subst written content
        refine Or.inr ⟨rfl, ?_⟩
        subst continued
        by_cases keyed : flight.state.idempotencyScopeKey.isSome = true
        · simp only [keyed, if_true, Expects]
          refine ⟨by simp only [claimRow, state], Or.inr (Or.inr ⟨effect, acts.of_eq state entry, ?_⟩)⟩
          simp only [claimRow, state]
        · have unkeyed : flight.state.idempotencyScopeKey = none := by simpa using keyed
          simp only [keyed, Expects]
          refine ⟨⟨none, by simp only [claimRow, state]⟩, Or.inr (Or.inr ⟨effect, ?_, ?_⟩)⟩
          · exact ⟨reply, acts.of_eq state entry⟩
          · simp only [claimRow, Effect.row?, acts.state, unkeyed, state, Option.map_none]
  · intro transaction committing
    rcases wrote.session with same | ⟨other, live⟩
    · obtain ⟨⟨answer, answered⟩, _⟩ := sound.committing transaction (same.symm.trans committing)
      rw [accepted] at answered
      cases answered
    · cases committing.symm.trans live
  · intro other answer phase
    subst continued
    by_cases keyed : flight.state.idempotencyScopeKey.isSome = true <;> simp [keyed] at phase

theorem Sound.store (sound : flight.Sound packages) {fault : Option Fault} {reply result : Json}
    {outcome : String} {kept : Flight} (logged : flight.phase = .logged reply outcome result)
    (wrote : Bookkept flight fault (fun transaction => { transaction with
      claim := transaction.claim.map fun row => { row with response := some reply } }) kept) :
    ({ kept with phase := .stored outcome result } : Flight).Sound packages := by
  obtain ⟨state, entry, _⟩ := wrote.hit
  refine ⟨?_, ?_, ?_⟩
  · intro transaction live
    rcases wrote.cases live sound.failing with
      gone | ⟨before, doomed⟩ | ⟨earlier, before, healthy, running, whole, written⟩
    · exact Or.inl gone
    · rcases sound.live transaction before with gone | ⟨healthy, expects⟩
      · exact Or.inl gone
      · simp only [Expects, logged] at expects
        refine Or.inr ⟨healthy, ⟨none, ?_⟩, doomed.imp_right Or.inl⟩
        rw [expects.1]
        simp only [claimRow, state]
    · rcases sound.live earlier before with gone | ⟨_, expects⟩
      · rw [gone] at healthy
        cases healthy
      · simp only [Expects, logged] at expects
        have row : transaction.claim =
            ({ kept with phase := .stored outcome result } : Flight).claimRow (some reply) := by
          rw [written, expects.1]
          simp only [claimRow, state, Option.map_map]
          rfl
        refine Or.inr ⟨by rw [written]; exact healthy, ⟨some reply, row⟩, ?_⟩
        rcases expects.2 with late | cut | ⟨effect, acts, content⟩
        · rw [running] at late
          cases late
        · rw [whole] at cut
          cases cut
        · refine Or.inr (Or.inr ⟨effect, ⟨reply, acts.of_eq state entry⟩, ?_⟩)
          subst written content
          simp only [claimRow, Effect.row?, acts.state, acts.value, state,
            Option.map_map]
          rfl
  · intro transaction committing
    rcases wrote.session with same | ⟨other, live⟩
    · obtain ⟨⟨answer, answered⟩, _⟩ := sound.committing transaction (same.symm.trans committing)
      rw [logged] at answered
      cases answered
    · cases committing.symm.trans live
  · intro other answer phase
    rcases phase with phase | phase <;> cases phase

theorem Sound.move (sound : flight.Sound packages)
    (move : Move packages db blocked flight input later after) : after.Sound packages := by
  cases move with
  | rested => exact sound
  | expired => exact sound.expire
  | dropped live => exact Sound.of_closed rfl sound.rejects
  | failed before thrown fails =>
      exact sound.answered _ thrown.state thrown.entry (thrown.session.imp_right And.right)
  | refused before fails => exact sound.answered _ rfl rfl (Or.inl rfl)
  | begun called keyed =>
      exact Sound.of_live rfl (Or.inr ⟨rfl, rfl⟩) (by simp)
  | begunUnkeyed called unkeyed =>
      refine Sound.of_live rfl (Or.inr ⟨rfl, ?_⟩) (by simp)
      simp [Expects, claimRow, unkeyed]
  | claimed begun keyed live healthy free absent =>
      rename_i scopeKey transaction
      refine Sound.of_live rfl (Or.inr ⟨healthy, ?_⟩) (by simp)
      rcases sound.live _ live with gone | ⟨_, expects⟩
      · rw [gone] at healthy
        cases healthy
      · simp only [Expects, begun] at expects
        subst expects
        rfl
  | conflicted begun live => exact Sound.of_live rfl (Or.inl rfl) (by simp)
  | cleared conflicted live => exact Sound.of_closed rfl (by simp)
  | replayed cleared keyed present answered same read =>
      exact sound.answered _ rfl rfl (Or.inl rfl)
  | invoked claimed whole running live healthy called => exact sound.invoke claimed live healthy called
  | rolledBack rejected live =>
      refine Sound.of_closed rfl ?_
      intro outcome answer phase
      rcases phase with phase | phase
      · cases phase
      · cases phase
        exact sound.rejects _ _ (Or.inl rejected)
  | unreached rejected fails =>
      exact sound.answered _ rfl rfl (Or.inl rfl)
  | reported rolledBack => exact sound.answered _ rfl rfl (Or.inl rfl)
  | logged accepted wrote continued => exact sound.log accepted wrote continued
  | clashed accepted present continued =>
      refine Sound.of_live rfl (Or.inl rfl) ?_
      intro outcome answer phase
      subst continued
      by_cases keyed : flight.state.idempotencyScopeKey.isSome = true <;> simp [keyed] at phase
  | stored logged wrote => exact sound.store logged wrote
  | committed stored whole running live => exact Sound.of_closed rfl (by simp [answer])
  | undone stored fails => exact Sound.of_closed rfl (by simp [answer])
  | inDoubt stored whole running live fails =>
      refine ⟨?_, ?_, ?_⟩
      · intro transaction live
        cases live
      · intro transaction committing
        cases committing
        refine ⟨⟨_, rfl⟩, (sound.live _ live).imp_right ?_⟩
        rintro ⟨_, expects⟩
        simp only [Expects, stored, running, whole] at expects
        obtain ⟨_, late | cut | ⟨effect, complete⟩⟩ := expects
        · cases late
        · cases cut
        · exact ⟨effect, _, _, complete.of_eq rfl rfl⟩
      · intro outcome answer phase
        rcases phase with phase | phase <;> cases phase
  | unsent stored fails => exact sound.answered _ rfl rfl (Or.inl rfl)
  | settled committing => exact Sound.of_closed rfl sound.rejects

end Steps

end Flight

end PaymentWorkflow
