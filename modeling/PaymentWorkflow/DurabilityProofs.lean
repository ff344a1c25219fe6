import PaymentWorkflow.ApiProofs

/-! When an ok answer stands for a committed transaction. -/

namespace PaymentWorkflow

open Interleaving

def RequestState.key? (state : RequestState) : Option (String × String) :=
  state.idempotencyScopeKey.map fun scopeKey => (scopeKey, state.requestId)

def Answer.Backed (packages : Packages) (state : RequestState) : Answer → Effect → Prop
  | .ok body, effect => effect.state = state ∧ ∃ reply outcome result,
      effect.value = some reply ∧
      checkEnvelope packages effect.entry reply = .ok (.accepted outcome result) ∧
      body = ⟨outcome, some result, uuidText state.correlationId, state.version⟩
  | .replayed body, effect => (∃ key, effect.state.key? = some key ∧ state.key? = some key) ∧
      effect.state.payloadHash = state.payloadHash ∧
      ∃ reply, effect.value = some reply ∧ Envelope.okFromStored reply = .ok body
  | .error .., _ | .unhandled, _ => False

namespace Flight

def sending (flight : Flight) : Bool :=
  match flight.session with
  | .live transaction => !transaction.failed && !flight.expired && !flight.broken
  | _ => false

def refuses (flight : Flight) (input : Input) : Bool :=
  match input, flight.phase, flight.state.idempotencyScopeKey with
  | .log (some .refused), .accepted .., _ => flight.sending
  | .store (some .refused), .logged .., _ => flight.sending
  | _, _, _ => false

def Tracks (packages : Packages) (db : ApiDb) (flight : Flight) (met : Prop) : Prop :=
  match flight.phase with
  | .accepted .. => met ∧ ∀ transaction, flight.session = .live transaction →
      transaction.failed = false
  | .logged .. | .stored .. => flight.expired = false → flight.broken = false →
      ∀ transaction, flight.session = .live transaction → (transaction.failed = false ↔ met)
  | .answered (.ok body) => flight.session = .closed ∧
      (met ↔ ∃ effect ∈ db.effects, Answer.Backed packages flight.state (.ok body) effect)
  | .answered (.replayed body) => met ∧
      ∃ effect ∈ db.effects, Answer.Backed packages flight.state (.replayed body) effect
  | .answered _ => True
  | _ => met

section Tracking

variable {packages : Packages} {db later : ApiDb} {blocked : Bool} {flight after : Flight}
  {input : Input} {met : Prop}

theorem Tracks.of_fails {reply : Answer} (fails : reply.Fails) :
    (after.answer reply).Tracks packages db met := by
  cases reply with
  | ok | replayed => exact fails.elim
  | error | unhandled => trivial

/-- A swallowed statement that is not refused leaves a running flight as it found it. -/
theorem Bookkept.tracks {fault : Option Fault} {write : Transaction → Transaction}
    (kept : Bookkept flight fault write after) (taken : fault = some .refused →
      flight.sending = false)
    (same : ∀ transaction, (write transaction).failed = transaction.failed)
    (running : after.expired = false) (whole : after.broken = false) {transaction : Transaction}
    (live : after.session = .live transaction) :
    flight.expired = false ∧ flight.broken = false ∧ ∃ earlier,
      flight.session = .live earlier ∧ transaction.failed = earlier.failed := by
  cases kept with
  | wrote unbroken unexpired before healthy calm =>
      cases live
      exact ⟨unexpired, unbroken, _, before, same _⟩
  | threw thrown =>
      have hit := execute_error thrown
      refine ⟨hit.running running, hit.whole whole, ?_⟩
      have held : ∃ earlier, flight.session = .live earlier := by
        rcases hit.session with equal | ⟨held, _⟩
        · exact ⟨transaction, equal.symm.trans live⟩
        · exact held
      obtain ⟨earlier, before⟩ := held
      refine ⟨earlier, before, ?_⟩
      cases healthy : earlier.failed with
      | false =>
          have refused := execute_refused thrown before healthy running whole
          have idle := taken refused
          simp [sending, before, healthy, hit.running running, hit.whole whole] at idle
      | true =>
          rcases hit.doomed with late | cut | ⟨other, current, failed⟩
          · rw [running] at late
            cases late
          · rw [whole] at cut
            cases cut
          · rw [Connection.live.inj (live.symm.trans current)]
            exact failed

theorem Tracks.expire (tracks : flight.Tracks packages db met) :
    ({ flight with expired := true } : Flight).Tracks packages db met := by
  unfold Tracks at tracks ⊢
  cases phase : flight.phase with
  | logged | stored => exact nofun
  | answered reply =>
      simp only [phase] at tracks
      cases reply <;> exact tracks
  | _ =>
      simp only [phase] at tracks
      exact tracks

theorem Tracks.drop (tracks : flight.Tracks packages db met) :
    ({ flight with session := .closed } : Flight).Tracks packages db met := by
  unfold Tracks at tracks ⊢
  cases phase : flight.phase with
  | logged | stored =>
      intro _ _ transaction live
      cases live
  | accepted =>
      simp only [phase] at tracks
      refine ⟨tracks.1, ?_⟩
      intro transaction live
      cases live
  | answered reply =>
      simp only [phase] at tracks
      cases reply with
      | ok => exact ⟨rfl, tracks.2⟩
      | _ => exact tracks
  | _ =>
      simp only [phase] at tracks
      exact tracks

theorem stored?_effect {scopeKey requestId : String} {row : IdempotencyRow} {response : Json}
    (stored : db.idempotency = db.effects.filterMap Effect.row?)
    (present : db.stored? scopeKey requestId = some row)
    (answered : row.response = some response) :
    ∃ effect ∈ db.effects, effect.state.key? = some (scopeKey, requestId) ∧
      effect.state.payloadHash = row.payloadHash ∧ effect.value = some response := by
  have keyed := List.find?_some present
  have member := List.mem_of_find?_eq_some present
  rw [stored] at member
  obtain ⟨effect, inside, written⟩ := List.mem_filterMap.mp member
  refine ⟨effect, inside, ?_⟩
  cases scope : effect.state.idempotencyScopeKey with
  | none => simp [Effect.row?, scope] at written
  | some own =>
      simp only [Effect.row?, scope, Option.map_some, Option.some.injEq] at written
      subst written
      have same : (own, effect.state.requestId) = (scopeKey, requestId) := of_decide_eq_true keyed
      exact ⟨by simp only [RequestState.key?, scope, Option.map_some, same], rfl, answered⟩

theorem Tracks.move (tracks : flight.Tracks packages db met) (sound : flight.Sound packages)
    (stored : db.idempotency = db.effects.filterMap Effect.row?)
    (unapplied : ¬ flight.Ended → ∀ effect ∈ db.effects, effect.state ≠ flight.state)
    (unlogged : ¬ flight.Ended → db.logged flight.state.correlationId = false)
    (taken : flight.refuses input = false)
    (move : Move packages db blocked flight input later after) :
    after.Tracks packages later met := by
  cases move with
  | rested => exact tracks
  | expired => exact tracks.expire
  | dropped live => exact tracks.drop
  | failed before thrown fails => exact Tracks.of_fails fails
  | refused before fails => exact Tracks.of_fails fails
  | begun phase | begunUnkeyed phase | claimed phase | conflicted phase | cleared phase =>
      simpa only [Tracks, phase] using tracks
  | replayed phase keyed present answered same read =>
      rename_i scopeKey row response body
      simp only [Tracks, phase] at tracks
      obtain ⟨effect, member, own, hash, value⟩ := stored?_effect stored present answered
      refine ⟨tracks, effect, member, ⟨_, own, ?_⟩, hash.trans same, response, value, read⟩
      simp only [answer, RequestState.key?, keyed, Option.map_some]
  | invoked phase whole running live healthy called =>
      rename_i target invocation transaction
      simp only [Tracks, phase] at tracks
      rcases judge_cases packages flight invocation.reply with
        thrown | ⟨outcome, reply, rejected, _⟩ | ⟨outcome, result, judged, _⟩
      · simp only [Tracks, thrown]
      · simpa only [Tracks, rejected] using tracks
      · simp only [Tracks, judged]
        refine ⟨tracks, fun other held => ?_⟩
        cases held
        exact healthy
  | rolledBack phase live => simpa only [Tracks, phase] using tracks
  | unreached phase fails => exact Tracks.of_fails fails
  | reported phase => exact Tracks.of_fails (sound.rejects _ _ (Or.inr phase))
  | logged phase wrote continued =>
      rename_i fault reply result outcome kept next
      simp only [Tracks, phase] at tracks
      have idle : fault = some .refused → flight.sending = false := by
        rintro rfl
        simpa only [refuses, phase] using taken
      have goal : kept.expired = false → kept.broken = false → ∀ transaction,
          kept.session = .live transaction → (transaction.failed = false ↔ met) := by
        intro running whole transaction live
        obtain ⟨_, _, earlier, before, same⟩ :=
          wrote.tracks idle (fun _ => rfl) running whole live
        rw [same]
        exact iff_of_true (tracks.2 earlier before) tracks.1
      subst continued
      by_cases keyed : flight.state.idempotencyScopeKey.isSome = true
      · simpa only [Tracks, keyed, if_true] using goal
      · simpa only [Tracks, keyed, Bool.false_eq_true, if_false] using goal
  | clashed phase present continued =>
      rw [unlogged (by rintro ⟨answer, ended⟩; rw [phase] at ended; cases ended)] at present
      cases present
  | stored phase wrote =>
      rename_i fault reply result outcome kept
      simp only [Tracks, phase] at tracks
      have idle : fault = some .refused → flight.sending = false := by
        rintro rfl
        simpa only [refuses, phase] using taken
      intro running whole transaction live
      obtain ⟨unexpired, unbroken, earlier, before, same⟩ :=
        wrote.tracks idle (fun _ => rfl) running whole live
      rw [same]
      exact tracks unexpired unbroken earlier before
  | committed phase whole running live =>
      rename_i outcome result transaction
      simp only [Tracks, phase] at tracks
      have healthy := tracks running whole transaction live
      refine ⟨rfl, healthy.symm.trans ?_⟩
      have open_ : ¬ flight.Ended := by
        rintro ⟨reply, ended⟩
        rw [phase] at ended
        cases ended
      rcases sound.live transaction live with gone | ⟨intact, expects⟩
      · rw [gone, commit_lost]
        refine iff_of_false (by simp [lost]) ?_
        rintro ⟨effect, member, own, _⟩
        exact unapplied open_ effect member own
      · simp only [Expects, phase, running, whole] at expects
        obtain ⟨_, late | cut | ⟨effect, complete⟩⟩ := expects
        · cases late
        · cases cut
        · rw [commit_complete complete]
          obtain ⟨reply, acts⟩ := complete.acts
          refine iff_of_true intact ⟨effect, List.mem_append_right _ (by simp), acts.state, reply,
            outcome, result, acts.value, ?_, rfl⟩
          rw [acts.entry]
          exact acts.accepted
  | undone phase fails => exact Tracks.of_fails fails
  | inDoubt phase whole running live fails => exact Tracks.of_fails fails
  | unsent phase fails => exact Tracks.of_fails fails
  | settled committing =>
      rename_i transaction committed
      obtain ⟨⟨reply, phase⟩, content⟩ := sound.committing transaction committing
      have grown : ∀ effect ∈ db.effects, effect ∈ (if committed = true then db.commit transaction
          else db).effects := by
        intro effect member
        split
        · unfold ApiDb.commit
          split
          · exact member
          · exact List.mem_append_left _ member
        · exact member
      simp only [Tracks, phase] at tracks ⊢
      cases reply with
      | ok body => cases committing.symm.trans tracks.1
      | replayed body =>
          obtain ⟨reached, effect, member, backed⟩ := tracks
          exact ⟨reached, effect, grown effect member, backed⟩
      | error | unhandled => trivial

theorem Tracks.grow (tracks : flight.Tracks packages db met)
    (kept : ∀ effect ∈ db.effects, effect ∈ later.effects)
    (foreign : ∀ effect ∈ later.effects, effect ∈ db.effects ∨ effect.state ≠ flight.state) :
    flight.Tracks packages later met := by
  unfold Tracks at tracks ⊢
  cases phase : flight.phase with
  | answered reply =>
      simp only [phase] at tracks
      cases reply with
      | ok body =>
          refine ⟨tracks.1, tracks.2.trans ⟨?_, ?_⟩⟩
          · rintro ⟨effect, member, backed⟩
            exact ⟨effect, kept effect member, backed⟩
          · rintro ⟨effect, member, backed⟩
            refine ⟨effect, ?_, backed⟩
            exact (foreign effect member).resolve_right fun other => other backed.1
      | replayed body =>
          obtain ⟨reached, effect, member, backed⟩ := tracks
          exact ⟨reached, effect, kept effect member, backed⟩
      | error | unhandled => trivial
  | _ =>
      simp only [phase] at tracks
      exact tracks

theorem refused_cases (refused : flight.refuses input = true) :
    ∃ reply outcome result transaction, flight.session = .live transaction ∧
      transaction.failed = false ∧ flight.expired = false ∧ flight.broken = false ∧
      (input = .log (some .refused) ∧ flight.phase = .accepted reply outcome result ∨
        input = .store (some .refused) ∧ flight.phase = .logged reply outcome result) := by
  unfold refuses at refused
  have sends : ∀ {goal : Prop}, flight.sending = true → (∀ transaction,
      flight.session = .live transaction → transaction.failed = false →
      flight.expired = false → flight.broken = false → goal) → goal := by
    intro goal sending use
    unfold Flight.sending at sending
    split at sending
    · rename_i transaction live
      simp only [Bool.and_eq_true, Bool.not_eq_true'] at sending
      exact use transaction live sending.1.1 sending.1.2 sending.2
    · cases sending
  split at refused
  · rename_i reply outcome result phase
    exact sends refused fun transaction live healthy running whole =>
      ⟨reply, outcome, result, transaction, live, healthy, running, whole, Or.inl ⟨rfl, phase⟩⟩
  · rename_i reply outcome result phase
    exact sends refused fun transaction live healthy running whole =>
      ⟨reply, outcome, result, transaction, live, healthy, running, whole, Or.inr ⟨rfl, phase⟩⟩
  · cases refused

/-- A refused statement is swallowed, and what is left of the transaction has failed. -/
theorem refused_step (refused : flight.refuses input = true) :
    ∃ next, flight.step packages db blocked input = (db, { flight.abort with phase := next }) ∧
      ((∃ reply outcome result, next = .logged reply outcome result) ∨
        ∃ outcome result, next = .stored outcome result) := by
  obtain ⟨reply, outcome, result, transaction, live, healthy, running, whole, sent⟩ :=
    refused_cases refused
  have thrown : flight.execute (some .refused) = .error (.npgsql, flight.abort) := by
    simp [execute, send, running, whole, live]
  rcases sent with ⟨rfl, phase⟩ | ⟨rfl, phase⟩
  · cases keyed : flight.state.idempotencyScopeKey with
    | none =>
        refine ⟨.stored outcome result, ?_, Or.inr ⟨outcome, result, rfl⟩⟩
        simp only [step, phase, keyed, log, thrown]
    | some scopeKey =>
        refine ⟨.logged reply outcome result, ?_, Or.inl ⟨reply, outcome, result, rfl⟩⟩
        simp only [step, phase, keyed, log, thrown]
  · refine ⟨.stored outcome result, ?_, Or.inr ⟨outcome, result, rfl⟩⟩
    simp only [step, phase, store, thrown]

theorem Tracks.of_refused {next : FlightPhase} (continued : (∃ reply outcome result,
      next = .logged reply outcome result) ∨ ∃ outcome result, next = .stored outcome result)
    (unmet : ¬ met) : ({ flight.abort with phase := next } : Flight).Tracks packages db met := by
  rcases continued with ⟨reply, outcome, result, rfl⟩ | ⟨outcome, result, rfl⟩
  all_goals
    intro _ _ transaction live
    cases live
    exact iff_of_false (by simp) unmet

end Tracking

end Flight

def Api.refuses (index : Nat) (api : Api) : ApiEvent → Bool
  | .statement other input =>
      other = index &&
        match api.party index with
        | .invoking flight => flight.refuses input
        | _ => false
  | _ => false

def Slot.Tracks (packages : Packages) (db : ApiDb) (met : Prop) : Slot → Prop
  | .invoking flight => flight.Tracks packages db met
  | _ => met

def Api.Tracked (packages : Packages) (index : Nat) (api : Api) (met : Prop) : Prop :=
  api.Sound packages ∧ (api.party index).Tracks packages api.shared met

theorem Slot.Tracks.grow {packages : Packages} {db later : ApiDb} {met : Prop} {slot : Slot}
    (tracks : slot.Tracks packages db met) (kept : ∀ effect ∈ db.effects, effect ∈ later.effects)
    (earlier : ∀ effect ∈ later.effects, effect ∈ db.effects) :
    slot.Tracks packages later met := by
  cases slot with
  | invoking flight =>
      exact Flight.Tracks.grow tracks kept fun effect member => Or.inl (earlier effect member)
  | free | received | turnedAway => exact tracks

theorem Slot.handle_tracks {packages : Packages} {catalog : Catalog} {index : Nat}
    {request : ActionRequest} {reached : Bool} {db : ApiDb} {met : Prop} (holds : met) :
    (Slot.handle packages catalog index request reached).Tracks packages db met := by
  unfold Slot.handle
  split
  · exact holds
  · split
    · exact holds
    · exact holds

section Runs

variable {packages : Packages} {registered : String → String → Bool} {api : Api} {index : Nat}
  {met : Prop}

/-- Nothing of a request is in the tables before it is answered. -/
theorem Api.Sound.unapplied (sound : api.Sound packages) {flight : Flight}
    (phase : api.party index = .invoking flight) (unended : ¬ flight.Ended) :
    (∀ effect ∈ api.shared.effects, effect.state ≠ flight.state) ∧
      api.shared.logged flight.state.correlationId = false := by
  have numbered := (sound.flights index flight phase).2
  constructor
  · intro effect member same
    obtain ⟨other, held, ended, _, state, _⟩ := sound.applied effect member
    have own := (sound.flights effect.request other held).2
    rw [state, same, numbered] at own
    rw [← own, phase, Slot.invoking.injEq] at held
    rw [held] at unended
    exact unended ended
  · by_contra present
    have present : api.shared.logged flight.state.correlationId = true := by simpa using present
    simp only [ApiDb.logged, List.any_eq_true, decide_eq_true_eq] at present
    obtain ⟨row, member, same⟩ := present
    obtain ⟨other, held, ended⟩ := sound.logged row member
    rw [same, numbered, phase, Slot.invoking.injEq] at held
    rw [held] at unended
    exact unended ended

theorem Api.Sound.foreign (sound : api.Sound packages) {other : Nat} {flight after : Flight}
    {shared : ApiDb} {input : Input} (phase : api.party other = .invoking flight)
    (move : Flight.Move packages api.shared (api.blocked other flight) flight input shared after)
    (different : index ≠ other) (tracks : (api.party index).Tracks packages api.shared met) :
    (api.party index).Tracks packages shared met := by
  obtain ⟨whole, numbered⟩ := sound.flights other flight phase
  cases slot : api.party index with
  | invoking own =>
      rw [slot] at tracks
      have place := (sound.flights index own slot).2
      refine Flight.Tracks.grow tracks ?_ ?_
      · intro effect member
        rcases move.writes whole with _ | _ | ⟨added, complete⟩
        · exact member
        · exact member
        · exact List.mem_append_left _ member
      · intro effect member
        rcases move.writes whole with _ | _ | ⟨added, complete⟩
        · exact Or.inl member
        · exact Or.inl member
        · simp only [ApiDb.apply, List.mem_append, List.mem_singleton] at member
          refine member.imp_right fun same state => different ?_
          obtain ⟨reply, acts⟩ := complete.acts
          rw [same, acts.state] at state
          rw [← place, ← numbered, state]
  | free | received | turnedAway =>
      rw [slot] at tracks
      exact tracks

theorem Api.Tracked.statement (tracked : api.Tracked packages index met) (other : Nat)
    (input : Input) :
    ((Api.step packages registered api (.statement other input)).party index).Tracks packages
      (Api.step packages registered api (.statement other input)).shared
      (met ∧ api.refuses index (.statement other input) = false) := by
  obtain ⟨sound, tracks⟩ := tracked
  unfold Api.step
  dsimp only
  by_cases same : index = other
  · subst same
    split
    · rename_i flight phase
      have refuses : api.refuses index (.statement index input) = flight.refuses input := by
        simp [Api.refuses, phase]
      rw [phase] at tracks
      rw [World.turn_shared, World.turn_own, refuses]
      by_cases refused : flight.refuses input = true
      · obtain ⟨next, moved, continued⟩ := @Flight.refused_step packages api.shared
          (api.blocked index flight) flight input refused
        rw [moved]
        exact Flight.Tracks.of_refused continued (by simp [refused])
      · have taken : flight.refuses input = false := by simpa using refused
        have move := Flight.step_move packages api.shared flight (api.blocked index flight) input
        have kept := Flight.Tracks.move tracks (sound.flights index flight phase).1 sound.stored
          (fun unended => (sound.unapplied phase unended).1)
          (fun unended => (sound.unapplied phase unended).2) taken move
        simpa only [Slot.Tracks, taken, and_true] using kept
    · rename_i idle
      have calm : api.refuses index (.statement index input) = false := by
        cases slot : api.party index with
        | invoking flight => exact absurd slot (idle flight)
        | free | received | turnedAway => simp [Api.refuses, slot]
      simpa only [calm, and_true] using tracks
  · have calm : api.refuses index (.statement other input) = false := by
      simp [Api.refuses, Ne.symm same]
    simp only [calm, and_true]
    split
    · rename_i flight phase
      rw [World.turn_shared, World.turn_other _ _ _ same]
      exact sound.foreign phase (Flight.step_move _ _ _ _ _) same tracks
    · exact tracks

theorem Api.Tracked.step (tracked : api.Tracked packages index met) (event : ApiEvent) :
    (Api.step packages registered api event).Tracked packages index
      (met ∧ api.refuses index event = false) := by
  refine ⟨tracked.1.step event, ?_⟩
  obtain ⟨sound, tracks⟩ := tracked
  cases event with
  | statement other input => exact Api.Tracked.statement ⟨sound, tracks⟩ other input
  | catalog call =>
      simp only [Api.refuses, and_true]
      exact tracks.grow (fun _ member => member) fun _ member => member
  | receive request =>
      simp only [Api.refuses, and_true]
      by_cases same : index = api.shared.received
      · subst same
        rw [sound.fresh _ (Nat.le_refl _)] at tracks
        rw [Api.step, World.turn_own]
        exact tracks
      · rw [Api.step, World.turn_other _ _ _ same]
        exact tracks.grow (fun _ member => member) fun _ member => member
  | handle other reached =>
      simp only [Api.refuses, and_true]
      unfold Api.step
      dsimp only
      split
      · rename_i request phase
        by_cases same : index = other
        · subst same
          rw [phase] at tracks
          rw [World.turn_shared, World.turn_own]
          exact Slot.handle_tracks tracks
        · rw [World.turn_shared, World.turn_other _ _ _ same]
          exact tracks
      · exact tracks

theorem Api.reached_tracked (packages : Packages) (registered : String → String → Bool)
    (catalog : Catalog) (events : List ApiEvent) (index : Nat) :
    Api.Tracked packages index (Runs.run (Api.step packages registered) (Api.start catalog) events)
      (Runs.Guarded (Api.step packages registered)
        (fun api event => api.refuses index event = false) (Api.start catalog) events) := by
  have tracked := @Runs.guarded_tracked Api ApiEvent (Api.step packages registered)
    (fun api event => api.refuses index event = false) (Api.Tracked packages index)
    (fun api event met tracked => tracked.step event) events (Api.start catalog) True
    ⟨Api.start_sound packages catalog, trivial⟩
  simpa only [true_and] using tracked

end Runs

/-- The transaction of an effect is really committed: the effect, its OK dispatch and the
response of its key are in the tables. -/
def ApiDb.Durable (packages : Packages) (db : ApiDb) (effect : Effect) : Prop :=
  effect ∈ db.effects ∧ db.Records packages effect

/-- The committed execution behind an answer that does not fail. -/
theorem Api.reached_backed {packages : Packages} {registered : String → String → Bool}
    {catalog : Catalog} {events : List ApiEvent} {index : Nat} {flight : Flight} {answer : Answer}
    (reached : (Runs.run (Api.step packages registered) (Api.start catalog) events).party index =
      .invoking flight)
    (answered : flight.phase = .answered answer) (success : ¬ answer.Fails) :
    (∃ effect ∈ (Runs.run (Api.step packages registered) (Api.start catalog) events).shared.effects,
        answer.Backed packages flight.state effect) ↔
      Runs.Guarded (Api.step packages registered)
        (fun api event => api.refuses index event = false) (Api.start catalog) events := by
  have tracks := (Api.reached_tracked packages registered catalog events index).2
  rw [reached] at tracks
  simp only [Slot.Tracks, Flight.Tracks, answered] at tracks
  cases answer with
  | ok body => exact tracks.2.symm
  | replayed body => exact iff_of_true tracks.2 tracks.1
  | error | unhandled => exact absurd trivial success

theorem ok_durable (packages : Packages) (registered : String → String → Bool) (catalog : Catalog)
    (events : List ApiEvent) (index : Nat) (flight : Flight) (answer : Answer)
    (reached : (Runs.run (Api.step packages registered) (Api.start catalog) events).party index =
      .invoking flight)
    (answered : flight.phase = .answered answer) (success : ¬ answer.Fails) :
    (∃ effect, (Runs.run (Api.step packages registered) (Api.start catalog) events).shared.Durable
        packages effect ∧ answer.Backed packages flight.state effect) ↔
      Runs.Guarded (Api.step packages registered)
        (fun api event => api.refuses index event = false) (Api.start catalog) events := by
  have sound := (Api.reached_tracked packages registered catalog events index).1
  rw [← Api.reached_backed reached answered success]
  constructor
  · rintro ⟨effect, committed, backed⟩
    exact ⟨effect, committed.1, backed⟩
  · rintro ⟨effect, member, backed⟩
    exact ⟨effect, ⟨member, sound.recorded effect member⟩, backed⟩

namespace Seed

def packages : Packages where
  evaluate := fun _ _ _ => .evaluated true
  sha256Hex := id

def registered : String → String → Bool := fun _ _ => true

def requestManifest : ActionManifest where
  module := "payment"
  action := "request"
  version := 1
  targetSchema := "payment"
  targetFunction := "request_v1"
  outcomes := ["created"]
  requiredPolicy := ["payment:create"]
  enabled := true
  isDefault := true
  contractVersion := "course-1"
  httpMethod := "POST"
  idempotencyMode := .required
  idempotencyScope := .principalAction
  timeoutMs := 5000

def paymentRequest (payload : String) : ActionRequest where
  module := "payment"
  action := "request"
  explicitVersion := none
  auth := ⟨"alice", "shop", ["payment:create"]⟩
  idempotencyKey := "request-123"
  payload := payload
  body := .object []

def createdEnvelope : Json :=
  .object [("status", .text "ok"), ("outcome", .text "created"), ("result", .object [])]

def paymentCall (index : Nat) (dispatch : Option Fault) : List ApiEvent :=
  [.handle index true, .statement index (.begin none), .statement index (.claim none),
    .statement index (.invoke (.returned (some createdEnvelope)) none),
    .statement index (.log dispatch), .statement index (.store none),
    .statement index (.commit none)]

def answeredFlight : Flight where
  state := RequestState.build packages 0 (paymentRequest "10.00") requestManifest
  entry := requestManifest
  phase := .answered (.ok ⟨"created", some (.object []), "0", 1⟩)

end Seed

theorem ok_durable_stored :
    ∃ effect, (Runs.run (Api.step Seed.packages Seed.registered)
        (Api.start [Seed.requestManifest])
        (.receive (Seed.paymentRequest "10.00") :: Seed.paymentCall 0 none)).shared.Durable
      Seed.packages effect ∧
      (Answer.ok ⟨"created", some (.object []), "0", 1⟩).Backed Seed.packages
        Seed.answeredFlight.state effect :=
  (ok_durable Seed.packages Seed.registered [Seed.requestManifest]
    (.receive (Seed.paymentRequest "10.00") :: Seed.paymentCall 0 none) 0 Seed.answeredFlight _
    (by decide +kernel) rfl id).mpr (by decide +kernel)

/-- The dispatch insert is refused, its exception swallowed, and COMMIT rolls back. -/
theorem ok_not_durable :
    ¬ ∀ (packages : Packages) (registered : String → String → Bool) (catalog : Catalog)
      (events : List ApiEvent) (index : Nat) (flight : Flight) (answer : Answer),
      (Runs.run (Api.step packages registered) (Api.start catalog) events).party index =
        .invoking flight →
      flight.phase = .answered answer → ¬ answer.Fails →
      ∃ effect, (Runs.run (Api.step packages registered) (Api.start catalog) events).shared.Durable
        packages effect ∧ answer.Backed packages flight.state effect := by
  intro durable
  obtain ⟨effect, ⟨member, _⟩, _⟩ := durable Seed.packages Seed.registered [Seed.requestManifest]
    (.receive (Seed.paymentRequest "10.00") :: Seed.paymentCall 0 (some .refused)) 0
    Seed.answeredFlight _ (by decide +kernel) rfl id
  have empty : (Runs.run (Api.step Seed.packages Seed.registered)
      (Api.start [Seed.requestManifest]) (.receive (Seed.paymentRequest "10.00") ::
        Seed.paymentCall 0 (some .refused))).shared.effects = [] := by
    decide +kernel
  rw [empty] at member
  cases member

end PaymentWorkflow
