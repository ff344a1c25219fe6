import PaymentWorkflow.ExecutorProofs
import PaymentWorkflow.IsolationProofs

/-! When the body read back from a stored envelope is the body the first request was given. -/

namespace PaymentWorkflow

open Interleaving JsonElement

/-- An envelope's own `meta` names the request and the version it is the answer to. -/
def Envelope.Restates (envelope : Json) (correlationId : Nat) (version : Int) : Prop :=
  ∃ members, envelope.member? "meta" = some (.object members) ∧
    (Json.object members).member? "correlationId" = some (.text (uuidText correlationId)) ∧
    (Json.object members).member? "actionVersion" = some (.number (.ofInt version))

theorem tryGetString_eq {members : List (String × Json)} {name content : String}
    (named : content ≠ "") :
    (∃ found, tryGetString (.object members) name = .ok found ∧ found.getD "" = content) ↔
      (Json.object members).member? name = some (.text content) := by
  constructor
  · rintro ⟨found, read, rfl⟩
    have present := (tryGetString_ok read).2
    cases found with
    | some text => exact present
    | none => exact absurd rfl named
  · intro present
    exact ⟨some content, tryGetString_of present, rfl⟩

def storedVersion (metadata : Json) : Except Thrown (Option Int) := do
  match ← tryGetProperty metadata "actionVersion" with
  | none => .ok none
  | some value => tryGetInt32 value

theorem storedVersion_eq {members : List (String × Json)} {version : Int}
    (valid : 1 ≤ version ∧ version < 2 ^ 31) :
    (∃ found, storedVersion (.object members) = .ok found ∧ found.getD 0 = version) ↔
      (Json.object members).member? "actionVersion" = some (.number (.ofInt version)) := by
  simp only [storedVersion, tryGetProperty]
  constructor
  · rintro ⟨found, read, rfl⟩
    obtain ⟨present, held, given⟩ := Runs.bind_eq_ok.mp read
    rw [Except.ok.inj held]
    split at given
    · cases given
      simp at valid
    · rename_i value
      cases value with
      | number decimal =>
          simp only [tryGetInt32] at given
          split at given
          · rename_i whole
            cases given
            obtain ⟨mantissa, scale⟩ := decimal
            obtain ⟨rfl, _⟩ := whole
            rfl
          · cases given
            simp at valid
      | _ => cases given
  · intro present
    refine ⟨some version, ?_, rfl⟩
    rw [present]
    have range : -2 ^ 31 ≤ version := by omega
    simp only [bind, Except.bind, tryGetInt32, Decimal.ofInt, range, valid.2, and_self, if_true]

def storedMeta (metadata : Option Json) : Except Thrown (String × Int) := do
  let correlationId ← match metadata with
    | none => .ok none
    | some metadata => tryGetString metadata "correlationId"
  let actionVersion ← match metadata with
    | none => .ok none
    | some metadata => storedVersion metadata
  .ok (correlationId.getD "", actionVersion.getD 0)

theorem storedMeta_eq {metadata : Option Json} {correlationId : Nat} {version : Int}
    (valid : 1 ≤ version ∧ version < 2 ^ 31) :
    storedMeta metadata = .ok (uuidText correlationId, version) ↔
      ∃ members, metadata = some (.object members) ∧
        (Json.object members).member? "correlationId" = some (.text (uuidText correlationId)) ∧
        (Json.object members).member? "actionVersion" = some (.number (.ofInt version)) := by
  cases metadata with
  | none =>
      refine iff_of_false (fun read => ?_) (by simp)
      exact uuidText_ne correlationId (congrArg Prod.fst (Except.ok.inj read)).symm
  | some metadata =>
      cases metadata with
      | object members =>
          simp only [Option.some.injEq, Json.object.injEq, exists_eq_left',
            ← tryGetString_eq (uuidText_ne correlationId), ← storedVersion_eq valid]
          constructor
          · intro read
            obtain ⟨text, textRead, rest⟩ := Runs.bind_eq_ok.mp read
            obtain ⟨number, numberRead, last⟩ := Runs.bind_eq_ok.mp rest
            have read := Except.ok.inj last
            exact ⟨⟨text, textRead, congrArg Prod.fst read⟩, number, numberRead,
              congrArg Prod.snd read⟩
          · rintro ⟨⟨text, textRead, texts⟩, number, numberRead, numbers⟩
            rw [← texts, ← numbers]
            exact Runs.bind_eq_ok.mpr ⟨text, textRead, Runs.bind_eq_ok.mpr ⟨number, numberRead, rfl⟩⟩
      | _ =>
          refine iff_of_false (fun read => ?_) (by simp)
          obtain ⟨_, thrown, _⟩ := Runs.bind_eq_ok.mp read
          cases thrown

/-- Of an accepted envelope only the reading of `meta` is open. -/
theorem okFromStored_accepted {packages : Packages} {entry : ActionManifest} {reply result : Json}
    {outcome : String} (accepted : checkEnvelope packages entry reply =
      .ok (.accepted outcome result)) :
    Envelope.okFromStored reply = (storedMeta (reply.member? "meta")).map fun read =>
      ⟨outcome, some result, read.1, read.2⟩ := by
  obtain ⟨_, ⟨members, rfl⟩, _, named, _, given, _⟩ := checkEnvelope_accepted.mp accepted
  have outcomeRead : tryGetString (.object members) "outcome" = .ok (some outcome) := by
    simp only [tryGetString, tryGetProperty, named]
    rfl
  have resultRead : tryGetProperty (.object members) "result" = .ok (some result) := by
    rw [tryGetProperty, given]
  have metaRead : tryGetProperty (.object members) "meta" =
      .ok ((Json.object members).member? "meta") := rfl
  unfold Envelope.okFromStored storedMeta storedVersion
  rw [outcomeRead, resultRead, metaRead]
  simp only [bind, Except.bind]
  cases (Json.object members).member? "meta" with
  | none => rfl
  | some metadata =>
      simp only
      cases tryGetString metadata "correlationId" with
      | error => rfl
      | ok text =>
          simp only
          cases tryGetProperty metadata "actionVersion" with
          | error => rfl
          | ok value =>
              cases value with
              | none => rfl
              | some value =>
                  simp only
                  cases tryGetInt32 value <;> rfl

theorem okFromStored_restates {packages : Packages} {entry : ActionManifest} {reply result : Json}
    {outcome : String} {correlationId : Nat} {version : Int}
    (valid : 1 ≤ version ∧ version < 2 ^ 31)
    (accepted : checkEnvelope packages entry reply = .ok (.accepted outcome result)) :
    Envelope.okFromStored reply = .ok ⟨outcome, some result, uuidText correlationId, version⟩ ↔
      Envelope.Restates reply correlationId version := by
  rw [Envelope.Restates, ← storedMeta_eq valid, okFromStored_accepted accepted]
  cases storedMeta (reply.member? "meta") with
  | error => simp [Except.map]
  | ok read =>
      obtain ⟨text, number⟩ := read
      simp [Except.map]

/-! An ok answer and the envelope that was stored are one execution's. -/

structure Api.Answering (packages : Packages) (api : Api) : Prop where
  sound : api.Sound packages
  own : ∀ index flight body, api.party index = .invoking flight →
    flight.phase = .answered (.ok body) → flight.session = .closed ∧
      ∀ effect ∈ api.shared.effects, effect.state = flight.state →
        (Answer.ok body).Backed packages flight.state effect

section Answering

variable {packages : Packages} {registered : String → String → Bool} {api : Api}

/-- A commit adds the whole effect of the flight, or nothing. -/
theorem Flight.Sound.commit_effects {db : ApiDb} {flight : Flight} {outcome : String}
    {result : Json} {transaction : Transaction} (sound : flight.Sound packages)
    (phase : flight.phase = .stored outcome result) (whole : flight.broken = false)
    (running : flight.expired = false) (live : flight.session = .live transaction) :
    ∀ effect ∈ (db.commit transaction).effects, effect ∈ db.effects ∨
      ∃ reply, Flight.Acts packages flight effect reply outcome result := by
  intro effect member
  rcases sound.live transaction live with gone | ⟨intact, expects⟩
  · rw [gone, Flight.commit_lost] at member
    exact .inl member
  · simp only [Flight.Expects, phase, running, whole] at expects
    obtain ⟨_, late | cut | ⟨own, complete⟩⟩ := expects
    · cases late
    · cases cut
    · rw [Flight.commit_complete complete, ApiDb.apply, List.mem_append, List.mem_singleton]
        at member
      refine member.imp_right fun same => ?_
      subst same
      exact complete.acts

theorem Api.Answering.statement (answering : api.Answering packages) {turning : Nat}
    {input : Input} {flight after : Flight} {shared : ApiDb}
    (phase : api.party turning = .invoking flight)
    (move : Flight.Move packages api.shared (api.blocked turning flight) flight input shared after)
    (sound : Api.Sound packages (api.turn turning shared (.invoking after))) :
    Api.Answering packages (api.turn turning shared (.invoking after)) := by
  refine ⟨sound, fun index own body reached answered => ?_⟩
  obtain ⟨whole, numbered⟩ := answering.sound.flights turning flight phase
  rw [World.turn_shared]
  by_cases same : index = turning
  · subst same
    rw [World.turn_own, Slot.invoking.injEq] at reached
    subst reached
    rw [move.state.1]
    rcases move.okCommitted whole answered with
      ⟨before, session, stays⟩ |
        ⟨outcome, result, transaction, stored, unbroken, running, live, closed, rfl, reply⟩
    · obtain ⟨closed, backed⟩ := answering.own index flight body phase before
      refine ⟨session.elim (fun kept => kept.trans closed) id, ?_⟩
      rcases stays with rfl | ⟨transaction, committing⟩
      · exact backed
      · cases closed.symm.trans committing
    · refine ⟨closed, fun effect member state => ?_⟩
      have unended : ¬ flight.Ended := by
        rintro ⟨answer, ended⟩
        cases stored.symm.trans ended
      rcases whole.commit_effects stored unbroken running live effect member with
        earlier | ⟨envelope, acts⟩
      · exact absurd state ((answering.sound.unapplied phase unended).1 effect earlier)
      · cases reply
        refine ⟨state, envelope, outcome, result, acts.value, ?_, rfl⟩
        rw [acts.entry]
        exact acts.accepted
  · rw [World.turn_other _ _ _ same] at reached
    obtain ⟨closed, backed⟩ := answering.own index own body reached answered
    refine ⟨closed, fun effect member state => ?_⟩
    rcases (move.writes whole).effects effect member with earlier | ⟨request, _⟩
    · exact backed effect earlier state
    · obtain ⟨other, held, _, _, stated, _⟩ := sound.applied effect member
      have number := (sound.flights effect.request other held).2
      have place := (answering.sound.flights index own reached).2
      rw [stated, state, place] at number
      exact absurd (number.trans (request.trans numbered)) same

theorem Api.Answering.step (answering : api.Answering packages) (event : ApiEvent) :
    (Api.step packages registered api event).Answering packages := by
  have sound : (Api.step packages registered api event).Sound packages :=
    answering.sound.step event
  cases event with
  | receive request =>
      refine ⟨sound, fun index flight body reached answered => ?_⟩
      simp only [Api.step] at reached ⊢
      by_cases same : index = api.shared.received
      · subst same
        rw [World.turn_own] at reached
        cases reached
      · rw [World.turn_other _ _ _ same] at reached
        exact answering.own index flight body reached answered
  | handle turning reached =>
      simp only [Api.step] at sound ⊢
      split at sound
      · refine ⟨sound, fun index flight body held answered => ?_⟩
        by_cases same : index = turning
        · subst same
          rw [World.turn_own] at held
          rw [(Slot.handle_looked held).2.1] at answered
          cases answered
        · rw [World.turn_other _ _ _ same] at held
          exact answering.own index flight body held answered
      · exact answering
  | statement turning input =>
      simp only [Api.step] at sound ⊢
      split at sound
      · rename_i flight phase
        exact answering.statement phase (Flight.step_move _ _ _ _ _) sound
      · exact answering
  | catalog call => exact ⟨sound, answering.own⟩

theorem Api.reached_answering (packages : Packages) (registered : String → String → Bool)
    (catalog : Catalog) (events : List ApiEvent) :
    (Runs.run (Api.step packages registered) (Api.start catalog) events).Answering packages := by
  refine Runs.run_invariant (Api.Answering packages) (fun api event answering =>
    answering.step event) events (Api.start catalog) ⟨Api.start_sound packages catalog, ?_⟩
  intro index flight body reached
  cases reached

theorem Api.Sound.stored?_key (sound : api.Sound packages) {effect : Effect} {scopeKey : String}
    (member : effect ∈ api.shared.effects)
    (keyed : effect.state.idempotencyScopeKey = some scopeKey) :
    api.shared.stored? scopeKey effect.state.requestId =
      some ⟨scopeKey, effect.state.requestId, effect.state.payloadHash, effect.value⟩ := by
  have present : (⟨scopeKey, effect.state.requestId, effect.state.payloadHash, effect.value⟩ :
      IdempotencyRow) ∈ api.shared.idempotency := by
    rw [sound.stored]
    exact List.mem_filterMap.mpr ⟨effect, member, by simp [Effect.row?, keyed]⟩
  exact Table.lookup_of_mem sound.unique present

end Answering

theorem replay_repeats (packages : Packages) (registered : String → String → Bool)
    (catalog : Catalog) (events : List ApiEvent) (effect : Effect) (reply : Json)
    (first second : Flight) (index : Nat) (original : OkBody) (key : String × String)
    (committed : effect ∈
      (Runs.run (Api.step packages registered) (Api.start catalog) events).shared.effects)
    (value : effect.value = some reply)
    (storing : (Runs.run (Api.step packages registered) (Api.start catalog) events).party
      effect.request = .invoking first)
    (answered : first.phase = .answered (.ok original))
    (reading : (Runs.run (Api.step packages registered) (Api.start catalog) events).party index =
      .invoking second)
    (cleared : second.phase = .cleared)
    (storedKey : first.state.key? = some key) (askedKey : second.state.key? = some key)
    (payload : first.state.payloadHash = second.state.payloadHash)
    (version : 1 ≤ first.state.version ∧ first.state.version < 2 ^ 31) :
    (Runs.run (Api.step packages registered) (Api.start catalog)
      (events ++ [.statement index (.read none)])).party index =
        .invoking (second.answer (.replayed original)) ↔
      Envelope.Restates reply first.state.correlationId first.state.version := by
  have answering := Api.reached_answering packages registered catalog events
  obtain ⟨other, held, _, _, state, entry⟩ := answering.sound.applied effect committed
  rw [storing, Slot.invoking.injEq] at held
  subst held
  obtain ⟨_, stored, outcome, result, given, accepted, rfl⟩ :=
    (answering.own _ first original storing answered).2 effect committed state.symm
  obtain rfl := Option.some.inj (value.symm.trans given)
  simp only [RequestState.key?, Option.map_eq_some_iff] at storedKey askedKey
  obtain ⟨scopeKey, keyed, rfl⟩ := storedKey
  obtain ⟨askedScopeKey, asked, pairs⟩ := askedKey
  simp only [Prod.mk.injEq] at pairs
  obtain ⟨rfl, sameRequest⟩ := pairs
  rw [state] at keyed
  have row := answering.sound.stored?_key committed keyed
  rw [← state, ← sameRequest] at row
  rw [← okFromStored_restates version accepted, Runs.run_append]
  simp only [Runs.run, Api.step, reading, World.turn_own, Slot.invoking.injEq]
  simp only [Flight.step, cleared, asked, Flight.read, row, value, payload, if_true]
  cases read : Envelope.okFromStored reply with
  | error => simp [Flight.answer]
  | ok body => simp [Flight.answer]

namespace Seed

/-- `request_v1` writes the version 1 into its envelope, whatever version it runs as. -/
def describedEnvelope : Json :=
  .object [("status", .text "ok"), ("outcome", .text "created"), ("result", .object []),
    ("meta", .object [("correlationId", .text "0"), ("actionVersion", .number (.ofInt 1))])]

def repeated : List ApiEvent :=
  [.receive (paymentRequest "10.00"), .handle 0 true, .statement 0 (.begin none),
    .statement 0 (.claim none),
    .statement 0 (.invoke (.returned (some describedEnvelope)) none),
    .statement 0 (.log none), .statement 0 (.store none), .statement 0 (.commit none),
    .receive (paymentRequest "10.00"), .handle 1 true, .statement 1 (.begin none),
    .statement 1 (.claim none), .statement 1 (.rollBack none)]

def versioned (version : Int) : ActionManifest := { requestManifest with version }

def describedEffect (version : Int) : Effect where
  request := 0
  state := RequestState.build packages 0 (paymentRequest "10.00") (versioned version)
  entry := versioned version
  executed := versioned version
  value := some describedEnvelope

def originalBody (version : Int) : OkBody := ⟨"created", some (.object []), "0", version⟩

def describedFlight (version : Int) : Flight where
  state := (describedEffect version).state
  entry := versioned version
  phase := .answered (.ok (originalBody version))

def clearedFlight (version : Int) : Flight where
  state := RequestState.build packages 1 (paymentRequest "10.00") (versioned version)
  entry := versioned version
  phase := .cleared

end Seed

theorem replay_repeats_first_version :
    (Runs.run (Api.step Seed.packages Seed.registered) (Api.start [Seed.versioned 1])
      (Seed.repeated ++ [.statement 1 (.read none)])).party 1 =
        .invoking ((Seed.clearedFlight 1).answer (.replayed (Seed.originalBody 1))) :=
  (replay_repeats Seed.packages Seed.registered [Seed.versioned 1] Seed.repeated
    (Seed.describedEffect 1) Seed.describedEnvelope (Seed.describedFlight 1)
    (Seed.clearedFlight 1) 1 (Seed.originalBody 1) ("alice:payment.request", "request-123")
    (by decide +kernel) rfl (by decide +kernel) rfl (by decide +kernel) rfl (by decide +kernel)
    (by decide +kernel) rfl (by decide)).mpr ⟨_, rfl, by decide +kernel, by decide +kernel⟩

/-- Version 2 of the action is answered as version 1 when its request is repeated. -/
theorem replay_differs :
    ¬ ∀ (packages : Packages) (registered : String → String → Bool) (catalog : Catalog)
      (events : List ApiEvent) (effect : Effect) (first second : Flight) (index : Nat)
      (original : OkBody) (key : String × String),
      effect ∈
        (Runs.run (Api.step packages registered) (Api.start catalog) events).shared.effects →
      (Runs.run (Api.step packages registered) (Api.start catalog) events).party
        effect.request = .invoking first →
      first.phase = .answered (.ok original) →
      (Runs.run (Api.step packages registered) (Api.start catalog) events).party index =
        .invoking second →
      second.phase = .cleared → first.state.key? = some key → second.state.key? = some key →
      first.state.payloadHash = second.state.payloadHash →
      (Runs.run (Api.step packages registered) (Api.start catalog)
        (events ++ [.statement index (.read none)])).party index =
          .invoking (second.answer (.replayed original)) := by
  intro repeats
  have same := repeats Seed.packages Seed.registered [Seed.versioned 2] Seed.repeated
    (Seed.describedEffect 2) (Seed.describedFlight 2) (Seed.clearedFlight 2) 1
    (Seed.originalBody 2) ("alice:payment.request", "request-123") (by decide +kernel)
    (by decide +kernel) rfl (by decide +kernel) rfl (by decide +kernel) (by decide +kernel) rfl
  exact absurd same (by decide +kernel)

end PaymentWorkflow
